import FileBroker.Data.Entry
import FileBroker.Proofs.Volume.Course
import Mathlib.Logic.Function.Basic

/-!
What a volume keeps true through its history. Every file has an index of its own, and no index and
no handle is given out twice, however many files and handles are gone by then.
-/
namespace FileBroker.Volume

variable {volume after : Volume} {now : UInt64} {request : Request} {response : Response}
  {name other : String} {node changed : FileNode}

/-! ### Entries by key -/

/-- Once all entries under a key are gone, the others are found as before. -/
theorem lookup_filter_ne {α β : Type} [DecidableEq α] (entries : List (α × β)) (gone key : α) :
    (entries.filter fun entry => entry.1 != gone).lookup key
      = if key = gone then none else entries.lookup key := by
  induction entries with
  | nil => simp
  | cons entry rest ih =>
    rw [Data.lookup_cons_eq]
    by_cases leaves : entry.1 = gone
    · rw [List.filter_cons_of_neg (by simp [leaves]), ih, leaves]
      by_cases asked : key = gone <;> simp [asked]
    · rw [List.filter_cons_of_pos (by simp [leaves]), Data.lookup_cons_eq, ih]
      by_cases asked : key = gone
      · simp [asked, Ne.symm leaves]
      · simp [asked]

theorem file?_setFile_of_ne (apart : other ≠ name) :
    (volume.setFile name changed).file? other = volume.file? other := by
  unfold file? setFile
  dsimp only
  induction volume.files with
  | nil => rfl
  | cons entry rest ih =>
    rw [List.map_cons, Data.lookup_cons_eq, Data.lookup_cons_eq, ih]
    by_cases same : entry.1 = name <;> simp [same, apart]

/-- The files after one of them was changed. -/
theorem file?_changed (held : volume.file? name = some node) (changed : FileNode) (used : Nat) :
    file? { volume.setFile name changed with used }
      = Function.update volume.file? name (some changed) := by
  funext other
  by_cases same : other = name
  · subst same
    rw [Function.update_self]
    exact file?_setFile held changed
  · rw [Function.update_of_ne same]
    exact file?_setFile_of_ne same

/-- The files after one of them was removed. -/
theorem file?_removed (volume : Volume) (name : String) (used : Nat) :
    file? { volume with used, files := volume.files.filter fun entry => entry.1 != name }
      = Function.update volume.file? name none := by
  funext other
  rw [Function.update_apply]
  exact lookup_filter_ne volume.files name other

/-! ### Opening -/

/-- An open makes an empty file under the next index, or empties the file that is there, or finds
it. -/
theorem reach_cases {disposition : Disposition} {reached : Volume}
    (found : volume.reach now name disposition = some (node, reached)) :
    (volume.file? name = none ∧ volume.lastIndex + 1 < Word.limit ∧
        node = ⟨volume.lastIndex + 1, [], now, now, false⟩ ∧
        reached = { volume with
          lastIndex := volume.lastIndex + 1
          files := volume.files ++ [(name, node)] }) ∨
      ∃ old, volume.file? name = some old ∧
        ((disposition.truncates = true ∧ node = { old with data := [], modified := now } ∧
            ∃ used, reached = { volume.setFile name node with used }) ∨
          disposition.truncates = false ∧ node = old ∧ reached = volume) := by
  unfold reach at found
  cases held : volume.file? name with
  | none =>
    simp only [held, Option.bind_eq_bind, Option.bind_eq_some_iff, Option.pure_def,
      Option.some.injEq, Prod.mk.injEq] at found
    obtain ⟨index, next, rfl, rfl⟩ := found
    obtain ⟨fresh, rfl⟩ := Word.check?_eq_some_iff.1 next
    exact .inl ⟨rfl, fresh, rfl, rfl⟩
  | some old =>
    simp only [held] at found
    refine .inr ⟨old, rfl, ?_⟩
    by_cases empties : disposition.truncates = true
    · rw [if_pos empties] at found
      simp only [Option.bind_eq_bind, Option.bind_eq_some_iff, Option.pure_def,
        Option.some.injEq, Prod.mk.injEq] at found
      obtain ⟨used, -, rfl, rfl⟩ := found
      exact .inl ⟨empties, rfl, used, rfl⟩
    · rw [if_neg empties] at found
      cases found
      exact .inr ⟨Bool.eq_false_iff.2 empties, rfl, rfl⟩

/-- The file that an open reaches stands under its name; every other file stays as it was. -/
theorem file?_reached {disposition : Disposition} {reached : Volume}
    (found : volume.reach now name disposition = some (node, reached)) :
    reached.file? = Function.update volume.file? name (some node) := by
  rcases reach_cases found with
    ⟨absent, -, -, rfl⟩ | ⟨old, held, ⟨-, -, used, rfl⟩ | ⟨-, rfl, rfl⟩⟩
  · funext other
    change (volume.files ++ [(name, node)]).lookup other = _
    rw [List.lookup_append, Data.lookup_cons_eq, List.lookup_nil, Function.update_apply]
    change (volume.file? other).or _ = _
    by_cases same : other = name
    · simp [same, absent]
    · simp [same]
  · exact file?_changed held _ used
  · rw [← held, Function.update_eq_self]

theorem handles_reached {disposition : Disposition} {reached : Volume}
    (found : volume.reach now name disposition = some (node, reached)) :
    reached.handles = volume.handles ∧ reached.lastHandle = volume.lastHandle ∧
      volume.lastIndex ≤ reached.lastIndex := by
  rcases reach_cases found with
    ⟨-, -, -, rfl⟩ | ⟨old, -, ⟨-, -, used, rfl⟩ | ⟨-, -, rfl⟩⟩
  · exact ⟨rfl, rfl, Nat.le_succ _⟩
  · exact ⟨rfl, rfl, Nat.le_refl _⟩
  · exact ⟨rfl, rfl, Nat.le_refl _⟩

/-- The handle that an open gives out was not there before; all others are found as before. -/
theorem lookup_handles_opened (lawful : volume.Lawful) {disposition : Disposition}
    {reached : Volume} (found : volume.reach now name disposition = some (node, reached))
    (handle : Nat) :
    (reached.handles ++ [(reached.lastHandle + 1, name)]).lookup handle
      = if handle = reached.lastHandle + 1 then some name else volume.handles.lookup handle := by
  obtain ⟨handles, last, -⟩ := handles_reached found
  have free : volume.handles.lookup (volume.lastHandle + 1) = none := by
    rw [List.lookup_eq_none_iff]
    intro entry member
    have before := lawful.handles entry member
    exact bne_iff_ne.2 (by omega)
  rw [List.lookup_append, Data.lookup_cons_eq, List.lookup_nil, handles, last]
  by_cases given : handle = volume.lastHandle + 1
  · rw [given, free, if_pos rfl]
    rfl
  · rw [if_neg given, if_neg given, Option.or_none]

/-! ### Numbers -/

/-- No file has an index beyond the last one given out, and no two files share one. -/
structure Numbered (volume : Volume) : Prop extends Lawful volume where
  last : volume.lastIndex < Word.limit
  indices : ∀ entry ∈ volume.files, entry.2.index ≤ volume.lastIndex
  own : ∀ entry ∈ volume.files, ∀ other ∈ volume.files,
    entry.2.index = other.2.index → entry.1 = other.1

theorem numbered_new (label : String) (size created : UInt64) :
    (new label size.toNat created).Numbered where
  toLawful := lawful_new label size.toNat_lt created
  last := by
    change 0 < Word.limit
    decide
  indices _ member := absurd member List.not_mem_nil
  own _ member := absurd member List.not_mem_nil

/-- A change to a file leaves its index to it. -/
theorem index_of_takes (takes : node.Takes now request response changed) :
    changed.index = node.index := by
  cases takes <;> rfl

namespace Numbered

theorem index_le (numbered : volume.Numbered) (held : volume.file? name = some node) :
    node.index ≤ volume.lastIndex :=
  numbered.indices _ (mem_files_of_file? held)

/-- A file may change in all but its index. -/
theorem setFile (numbered : volume.Numbered) (held : volume.file? name = some node)
    (index : changed.index = node.index) {used : Nat}
    (lawful : Lawful { volume.setFile name changed with used }) :
    Numbered { volume.setFile name changed with used } := by
  have origin : ∀ entry ∈ (volume.setFile name changed).files, ∃ old ∈ volume.files,
      entry.1 = old.1 ∧ entry.2.index = old.2.index := by
    intro entry member
    obtain ⟨old, found, rfl⟩ := List.mem_map.1 member
    by_cases same : (old.1 == name) = true
    · rw [if_pos same]
      exact ⟨_, mem_files_of_file? held, rfl, index⟩
    · rw [if_neg same]
      exact ⟨old, found, rfl, rfl⟩
  refine ⟨lawful, numbered.last, fun entry member => ?_, fun entry member other member' same => ?_⟩
  · obtain ⟨old, found, -, same⟩ := origin entry member
    rw [same]
    exact numbered.indices old found
  · obtain ⟨old, found, name, index⟩ := origin entry member
    obtain ⟨old', found', name', index'⟩ := origin other member'
    rw [name, name']
    exact numbered.own old found old' found' (by rw [← index, ← index', same])

theorem reach (numbered : volume.Numbered) {disposition : Disposition} {reached : Volume}
    (found : volume.reach now name disposition = some (node, reached)) : reached.Numbered := by
  have lawful := (numbered.toLawful.reach found).1
  rcases reach_cases found with
    ⟨-, fresh, rfl, rfl⟩ | ⟨old, held, ⟨-, rfl, used, rfl⟩ | ⟨-, -, rfl⟩⟩
  · refine ⟨lawful, fresh, fun entry member => ?_, fun entry member other member' same => ?_⟩
    · rcases List.mem_append.1 member with before | new
      · exact Nat.le_succ_of_le (numbered.indices entry before)
      · obtain rfl := List.mem_singleton.1 new
        exact Nat.le_refl _
    · -- The next index is beyond those of all other files.
      rcases List.mem_append.1 member with before | new <;>
        rcases List.mem_append.1 member' with before' | new'
      · exact numbered.own entry before other before' same
      · obtain rfl := List.mem_singleton.1 new'
        exact absurd (numbered.indices entry before) (by rw [same]; exact Nat.not_succ_le_self _)
      · obtain rfl := List.mem_singleton.1 new
        exact absurd (numbered.indices other before') (by rw [← same]; exact Nat.not_succ_le_self _)
      · obtain rfl := List.mem_singleton.1 new
        obtain rfl := List.mem_singleton.1 new'
        rfl
  · have kept : ({ old with data := [], modified := now } : FileNode).index = old.index := rfl
    exact numbered.setFile held kept lawful
  · exact numbered

/-- Whatever is granted, files keep their numbers apart. -/
theorem fulfils (numbered : volume.Numbered) (lawful : after.Lawful)
    (fulfils : volume.Fulfils now request response after) : after.Numbered := by
  cases fulfils with
  | opened command named known allowed found fresh =>
    have reached := numbered.reach found
    exact ⟨lawful, reached.last, reached.indices, reached.own⟩
  | told => exact numbered
  | changed used held takes total =>
    exact numbered.setFile (node?_eq_ok.1 held).2 (index_of_takes takes) lawful
  | kept => exact numbered
  | removed =>
    exact ⟨lawful, numbered.last,
      fun entry member => numbered.indices entry (List.mem_filter.1 member).1,
      fun entry member other member' =>
        numbered.own entry (List.mem_filter.1 member).1 other (List.mem_filter.1 member').1⟩
  | closed => exact ⟨lawful, numbered.last, numbered.indices, numbered.own⟩
  | described => exact numbered
  | shutdown => exact numbered

theorem sends (numbered : volume.Numbered) (sends : volume.Sends now request response after) :
    after.Numbered := by
  obtain ⟨draft, handled, -⟩ := id sends
  have lawful := (handle_spec numbered.toLawful now request).1
  rw [handled] at lawful
  cases course_of_sends sends with
  | refused => exact numbered
  | granted granted => exact numbered.fulfils lawful granted

end Numbered

/-! ### Runs -/

/-- A request that was answered: what was sent for it, and the volume after it. -/
structure Turn where
  request : Request
  response : Response
  after : Volume

/-- The requests were answered one after the other, and none of them with a crash. -/
def Runs (volume : Volume) : List Turn → Prop
  | [] => True
  | turn :: rest =>
    (∃ now, volume.Sends now turn.request turn.response turn.after) ∧ turn.after.Runs rest

/-- The volume after the last of them. -/
def ends (volume : Volume) : List Turn → Volume
  | [] => volume
  | turn :: rest => turn.after.ends rest

theorem runs_append {first second : List Turn} :
    volume.Runs (first ++ second) ↔
      volume.Runs first ∧ (volume.ends first).Runs second := by
  induction first generalizing volume with
  | nil => simp [Runs, ends]
  | cons turn rest ih => simp [Runs, ends, ih, and_assoc]

/-- What each turn of a run preserves holds after it. -/
theorem runs_induction {holds : Volume → Prop} {turns : List Turn} (runs : volume.Runs turns)
    (start : holds volume)
    (step : ∀ turn ∈ turns, ∀ {volume : Volume} {now : UInt64}, holds volume →
      volume.Sends now turn.request turn.response turn.after → holds turn.after) :
    holds (volume.ends turns) := by
  induction turns generalizing volume with
  | nil => exact start
  | cons turn rest ih =>
    rw [List.forall_mem_cons] at step
    obtain ⟨⟨now, sends⟩, onward⟩ := runs
    exact ih onward (step.1 start sends) step.2

theorem Numbered.runs (numbered : volume.Numbered) {turns : List Turn}
    (runs : volume.Runs turns) : (volume.ends turns).Numbered :=
  runs_induction runs numbered fun _ _ _ _ kept sends => kept.sends sends

/-! ### One file -/

/-- Opens a file, which is made if it is not there. -/
def openingA : Request where
  revision := .v1
  hint := ⟨1⟩
  command := .create { (default : OpenOptions) with
    options := Disposition.openOrCreate.toOptions
    fileName := ⟨80, 1⟩ }
  trailing := [97]

/-- A file that was just made. -/
def blank (index : Nat) : FileNode := ⟨index, [], 0, 0, false⟩

/-- A volume with one file or none, and some handles for its name. -/
def holding (file : Option FileNode) (handles lastIndex : Nat) : Volume where
  label := ""
  size := 16
  created := 0
  files := file.toList.map fun node => ("a", node)
  handles := (List.range handles).map fun handle => (handle + 1, "a")
  lastHandle := handles
  lastIndex := lastIndex
  used := (file.map FileNode.size).getD 0

def openedA (handle : UInt64) (index : Nat) : Turn where
  request := openingA
  response := openingA.granted 0 (.create ⟨handle, UInt64.ofNat index⟩ 0 (blank index).info)
  after := holding (some (blank index)) handle.toNat index

end FileBroker.Volume
