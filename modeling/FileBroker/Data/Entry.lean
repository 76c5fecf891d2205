/-!
Entries by key, in the order in which their keys were first written. Main statement: a look-up
finds what was put under its key last.
-/
namespace FileBroker.Data

/-- Puts an entry under a key, in place of an older one. -/
def put {α : Type} (entries : List (String × α)) (key : String) (value : α) : List (String × α) :=
  match entries with
  | [] => [(key, value)]
  | entry :: rest =>
    if entry.1 == key then (key, value) :: rest else entry :: put rest key value

theorem lookup_cons_eq {κ α : Type} [DecidableEq κ] (entry : κ × α) (rest : List (κ × α))
    (key : κ) :
    (entry :: rest).lookup key = if key = entry.1 then some entry.2 else rest.lookup key := by
  rw [List.lookup_cons]
  by_cases same : key = entry.1
  · simp [same]
  · simp [same, beq_eq_false_iff_ne.2 same]

theorem lookup_put {α : Type} (entries : List (String × α)) (key other : String) (value : α) :
    (put entries key value).lookup other =
      if other = key then some value else entries.lookup other := by
  induction entries with
  | nil => simp [put, lookup_cons_eq]
  | cons entry rest ih =>
    obtain ⟨first, held⟩ := entry
    unfold put
    by_cases found : first = key
    · subst found
      by_cases same : other = first <;> simp [lookup_cons_eq, same]
    · by_cases same : other = first
      · subst same
        simp [lookup_cons_eq, found]
      · simp [lookup_cons_eq, found, same, ih]

theorem keys_put {α : Type} (entries : List (String × α)) (key : String) (value : α) :
    (put entries key value).map Prod.fst =
      if key ∈ entries.map Prod.fst then entries.map Prod.fst
      else entries.map Prod.fst ++ [key] := by
  induction entries with
  | nil => simp [put]
  | cons entry rest ih =>
    unfold put
    by_cases found : entry.1 = key
    · simp [found]
    · have distinct : key ≠ entry.1 := fun same => found same.symm
      by_cases held : key ∈ rest.map Prod.fst <;> simp_all

end FileBroker.Data
