import FileBroker.Clock.Text
import FileBroker.Data.Value
import FileBroker.Word

/-!
How types are written as structured data and read back. Reading is strict: numbers have to be whole
and fit, and names have to be spelled exactly. A record is a table, whose unknown entries are
ignored, or a list of all its fields in order. Main statement: a choice reads as what it was
written from.
-/
namespace FileBroker.Data

structure Schema (α : Type) where
  write : α → Value
  read? : Value → Option α

namespace Schema

/-! ### Plain values -/

/-- Whole numbers below a bound. -/
def natural (bound : Nat) : Schema Nat where
  write := Value.ofNat
  read?
    | .int n => if 0 ≤ n ∧ n < bound then some n.toNat else none
    | _ => none

def word32 : Schema UInt32 where
  write n := .ofNat n.toNat
  read? value := ((natural (UInt32.size)).read? value).map UInt32.ofNat

def word64 : Schema UInt64 where
  write n := .ofNat n.toNat
  read? value := ((natural (Word.limit)).read? value).map UInt64.ofNat

def text : Schema String where
  write := .text
  read?
    | .text written => some written
    | _ => none

def flag : Schema Bool where
  write := .bool
  read?
    | .bool set => some set
    | _ => none

/-- Spans of time are text. -/
def span : Schema Span where
  write n := .text n.text
  read? value := (text.read? value).bind Span.ofText?

/-- Null stands for nothing. -/
def optional {α : Type} (schema : Schema α) : Schema (Option α) where
  write := .ofOption schema.write
  read?
    | .null => some none
    | value => (schema.read? value).map some

/-- One of a few names; a name may also be written as the only entry of a table, without a value. -/
def choice {α : Type} (all : List α) (name : α → String) : Schema α where
  write a := .text (name a)
  read?
    | .text written | .table [(written, .null)] => all.find? fun a => name a == written
    | _ => none

theorem natural_read_write {bound n : Nat} (h : n < bound) :
    (natural bound).read? ((natural bound).write n) = some n := by
  have : (n : Int) < bound := by omega
  simp [natural, Value.ofNat, this]

theorem word32_read_write (n : UInt32) : word32.read? (word32.write n) = some n := by
  have h : (natural (UInt32.size)).read? (.ofNat n.toNat) = some n.toNat :=
    natural_read_write n.toNat_lt
  simp only [word32, h, Option.map_some, UInt32.ofNat_toNat]

theorem word64_read_write (n : UInt64) : word64.read? (word64.write n) = some n := by
  have h : (natural (Word.limit)).read? (.ofNat n.toNat) = some n.toNat :=
    natural_read_write n.toNat_lt
  simp only [word64, h, Option.map_some, UInt64.ofNat_toNat]

/-- Names that differ and cover everything lose nothing. -/
theorem choice_read_write {α : Type} {all : List α} {name : α → String} {a : α}
    (distinct : ∀ b, name b = name a → b = a) (h : a ∈ all) :
    (choice all name).read? ((choice all name).write a) = some a := by
  have found : all.find? (fun b => name b == name a) ≠ none := by
    intro none
    simpa using List.find?_eq_none.1 none a h
  obtain ⟨b, hb⟩ := Option.ne_none_iff_exists'.1 found
  have same : name b = name a := by simpa using List.find?_some hb
  rw [distinct b same] at hb
  exact hb

/-! ### Records -/

/-- The fields of a record by name. -/
structure Fields where
  entries : List (String × Value)

/-- The fields of a record that may be cut short, where a list gives the first of them. -/
def fields? (names : List String) : Value → Option Fields
  | .table entries => some ⟨entries⟩
  | .list items => if items.length ≤ names.length then some ⟨names.zip items⟩ else none
  | _ => none

/-- The fields of a record that is given as a whole. -/
def allFields? (names : List String) (value : Value) : Option Fields :=
  match value with
  | .list items => if items.length = names.length then fields? names value else none
  | _ => fields? names value

namespace Fields

def get? {α : Type} (fields : Fields) (name : String) (schema : Schema α) : Option α :=
  (fields.entries.lookup name).bind schema.read?

/-- The field, or the default where it is missing. -/
def getOr? {α : Type} (fields : Fields) (name : String) (schema : Schema α) (default : α) :
    Option α :=
  match fields.entries.lookup name with
  | some value => schema.read? value
  | none => some default

end Fields

/-- Numbers by name, of 64 bits each. -/
def counters (names : List String) : Schema (List (String × Nat)) where
  write := Value.ofCounters
  read? value := do
    let fields ← allFields? names value
    names.mapM fun name => return (name, ← fields.get? name (natural (Word.limit)))

end Schema
end FileBroker.Data
