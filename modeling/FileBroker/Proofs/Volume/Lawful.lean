import FileBroker.Proofs.Response.Draft
import FileBroker.Volume.Basic

/-!
What no request takes from a volume, and what a volume can answer with. Sizes stay within a word and
handles behind the last one that was given out, and every draft that comes back was made from the
one that went in.
-/
namespace FileBroker.Volume

/-- The size is a word, no file is longer than can be held, and no handle was given out ahead of the
last one. -/
structure Lawful (volume : Volume) : Prop where
  size : volume.size < Word.limit
  files : ∀ entry ∈ volume.files, entry.2.size ≤ FileNode.longest
  handles : ∀ entry ∈ volume.handles, entry.1 ≤ volume.lastHandle

theorem lawful_new (label : String) {size : Nat} (word : size < Word.limit) (created : UInt64) :
    (new label size created).Lawful where
  size := word
  files _ member := absurd member List.not_mem_nil
  handles _ member := absurd member List.not_mem_nil

section Changes

variable {volume : Volume} {name : String} {node : FileNode}

theorem mem_files_of_file? (held : volume.file? name = some node) :
    (name, node) ∈ volume.files := by
  obtain ⟨before, rest, whole, -⟩ := List.lookup_eq_some_iff.1 held
  rw [whole]
  simp

theorem node?_eq_ok {file : FileKey} :
    volume.node? file = .ok (name, node) ↔
      volume.nameOf? file = some name ∧ volume.file? name = some node := by
  unfold node?
  constructor
  · intro found
    split at found
    · cases found
    · next named =>
      split at found
      · cases found
      · next held =>
        cases found
        exact ⟨named, held⟩
  · rintro ⟨named, held⟩
    rw [named]
    dsimp only
    rw [held]

namespace Lawful

theorem file (lawful : volume.Lawful) (held : volume.file? name = some node) :
    node.size ≤ FileNode.longest :=
  lawful.files _ (mem_files_of_file? held)

theorem open_file (lawful : volume.Lawful) {file : FileKey}
    (held : volume.node? file = .ok (name, node)) : node.size ≤ FileNode.longest :=
  lawful.file (node?_eq_ok.1 held).2

theorem setFile (lawful : volume.Lawful) (name : String) (short : node.size ≤ FileNode.longest)
    (used : Nat) : Lawful { volume.setFile name node with used } where
  size := lawful.size
  handles := lawful.handles
  files entry member := by
    obtain ⟨old, held, rfl⟩ := List.mem_map.1 member
    by_cases same : (old.1 == name) = true
    · rw [if_pos same]
      exact short
    · rw [if_neg same]
      exact lawful.files old held

/-- A file is opened, or a new one is: nothing but its handle is new. -/
theorem reach (lawful : volume.Lawful) {now : UInt64} {disposition : Disposition} {after : Volume}
    (reached : volume.reach now name disposition = some (node, after)) :
    after.Lawful ∧ after.lastHandle = volume.lastHandle := by
  unfold Volume.reach at reached
  cases held : volume.file? name with
  | none =>
    simp only [held, Option.bind_eq_bind, Option.bind_eq_some_iff, Option.pure_def,
      Option.some.injEq, Prod.mk.injEq] at reached
    obtain ⟨index, -, rfl, rfl⟩ := reached
    refine ⟨⟨lawful.size, fun entry member => ?_, lawful.handles⟩, rfl⟩
    rcases List.mem_append.1 member with before | last
    · exact lawful.files entry before
    · obtain rfl := List.mem_singleton.1 last
      exact Nat.zero_le _
  | some old =>
    rw [held] at reached
    dsimp only at reached
    split at reached
    · simp only [Option.bind_eq_bind, Option.bind_eq_some_iff, Option.pure_def,
        Option.some.injEq, Prod.mk.injEq] at reached
      obtain ⟨used, -, rfl, rfl⟩ := reached
      exact ⟨lawful.setFile name (Nat.zero_le _) used, rfl⟩
    · cases reached
      exact ⟨lawful, rfl⟩

end Lawful

end Changes

/-! ### Steps -/

/-- The volume is lawful, and what goes back was made from the draft for the request. -/
structure Serves (request : Request) (result : Result) (volume : Volume) : Prop where
  lawful : volume.Lawful
  made : ∀ information draft, result = .ok (information, draft) → draft.MadeFor request
  left : ∀ status draft, result = .error (status, draft) → draft.MadeFor request

/-- What a step comes to, unless it faults. -/
def Keeps (request : Request) (step : Step) : Prop :=
  ∀ result after, step = some (result, after) → Serves request result after

section Steps

variable {volume : Volume} {request : Request} {draft : Response.Draft}

theorem Keeps.some {result : Result} (serves : Serves request result volume) :
    Keeps request (some (result, volume)) := by
  intro result' after same
  cases same
  exact serves

/-- A step that goes on with a value keeps what it keeps for each value. -/
theorem Keeps.bind {α : Type} {value : Option α} {next : α → Step}
    (keeps : ∀ a, value = .some a → Keeps request (next a)) : Keeps request (value >>= next) := by
  intro result after same
  obtain ⟨a, found, same'⟩ := Option.bind_eq_some_iff.1 same
  exact keeps a found result after same'

theorem keeps_refuse (lawful : volume.Lawful) (made : draft.MadeFor request) (status : Status) :
    Keeps request (volume.refuse draft status) := by
  refine .some ⟨lawful, nofun, fun status' left same => ?_⟩
  cases same
  exact made

theorem keeps_answered (lawful : volume.Lawful) (made : draft.MadeFor request)
    (information : Nat) (answer : Answer) :
    Keeps request (some (answered draft information answer, volume)) := by
  unfold answered
  refine .some ⟨lawful, fun count completed same => ?_, fun status left same => ?_⟩
  · split at same
    · next set =>
      cases same
      exact made.setAnswer set
    · cases same
  · split at same
    · cases same
    · cases same
      exact made

theorem keeps_create (lawful : volume.Lawful) (made : draft.MadeFor request) (now : UInt64)
    (options : OpenOptions) : Keeps request (volume.create now request options draft) := by
  unfold create
  split
  · exact keeps_refuse lawful made _
  · exact keeps_refuse lawful made _
  · next name disposition _ _ =>
    split
    · exact keeps_refuse lawful made _
    · refine .bind fun (node, reached) found => .bind fun handle next => ?_
      obtain ⟨lawful', last⟩ := lawful.reach found
      obtain ⟨-, rfl⟩ := Word.check?_eq_some_iff.1 next
      have lawful'' : Lawful { reached with
          lastHandle := reached.lastHandle + 1
          handles := reached.handles ++ [(reached.lastHandle + 1, name)] } := by
        refine ⟨lawful'.size, lawful'.files, fun entry member => ?_⟩
        rcases List.mem_append.1 member with before | new
        · exact Nat.le_succ_of_le (lawful'.handles entry before)
        · obtain rfl := List.mem_singleton.1 new
          exact Nat.le_refl _
      exact keeps_answered lawful'' made _ _

theorem keeps_read (lawful : volume.Lawful) (made : draft.MadeFor request) (file : FileKey)
    (offset length : Nat) : Keeps request (volume.read file offset length draft) := by
  unfold read
  split
  · exact keeps_refuse lawful made _
  · split
    · exact keeps_refuse lawful made _
    · refine .bind fun stop _ => ?_
      dsimp only
      split
      · exact keeps_refuse lawful made _
      · next appended => exact keeps_answered lawful (made.append appended) _ _

/-- A file that grew may be cut or filled, but not beyond what can be held. -/
theorem size_resize? {node resized : FileNode} {size : Nat}
    (done : node.resize? size = some resized) :
    resized.size = size ∧ size ≤ FileNode.longest := by
  unfold FileNode.resize? at done
  split at done
  · next short =>
    cases done
    refine ⟨?_, short⟩
    unfold FileNode.size
    dsimp only
    split
    · next cut =>
      rw [List.length_take]
      exact Nat.min_eq_left cut
    · next filled =>
      change ¬ size ≤ node.data.length at filled
      change (node.data ++ List.replicate (size - node.data.length) 0).length = size
      rw [List.length_append, List.length_replicate]
      omega
  · cases done

theorem keeps_write (lawful : volume.Lawful) (made : draft.MadeFor request) (now : UInt64)
    (file : FileKey) (offset : Nat) (bytes : Bytes) :
    Keeps request (volume.write now file offset bytes draft) := by
  unfold write
  split
  · exact keeps_refuse lawful made _
  · next name node _ =>
    split
    · exact keeps_refuse lawful made _
    · next stop within =>
      refine .bind fun used _ => ?_
      split
      · exact keeps_refuse lawful made _
      · refine .bind fun grown resized => ?_
        obtain ⟨size, short⟩ := size_resize? resized
        obtain ⟨-, rfl⟩ := Word.check?_eq_some_iff.1 within
        refine keeps_answered (lawful.setFile name ?_ used) made _ _
        change grown.data.length = _ at size
        change (Bytes.overwrite grown.data offset bytes).length ≤ _
        rw [Bytes.length_overwrite (by omega), size]
        exact short

theorem keeps_setEnd (lawful : volume.Lawful) (made : draft.MadeFor request) (now : UInt64)
    (name : String) (node : FileNode) (size : Nat) :
    Keeps request (volume.setEnd now name node size draft) := by
  refine .bind fun room _ => ?_
  split
  · refine .bind fun total _ => .bind fun resized done => ?_
    obtain ⟨length, short⟩ := size_resize? done
    exact keeps_answered (lawful.setFile name (length ▸ short) (total - node.size)) made _ _
  · exact keeps_refuse lawful made _

theorem keeps_setInformation (lawful : volume.Lawful) (made : draft.MadeFor request) (now : UInt64)
    (file : FileKey) (change : FileChange) :
    Keeps request (volume.setInformation now file change draft) := by
  unfold setInformation
  split
  · exact keeps_refuse lawful made _
  · next name node held =>
    have changed : ∀ node : FileNode, node.size ≤ FileNode.longest → Keeps request
        (some (answered draft 0 (.setInformation node.info), volume.setFile name node)) :=
      fun node short => keeps_answered (lawful.setFile name short volume.used) made _ _
    have short := lawful.open_file held
    cases change with
    | endOfFile size advanceOnly => exact keeps_setEnd lawful made now name node size.toNat
    | disposition delete =>
      exact changed { node with deletePending := delete, modified := now } short
    | basic => exact changed { node with modified := now } short
    | allocation size => exact changed { node with modified := now } short
    | rename newName replace => exact keeps_refuse lawful made _

theorem keeps_queried (lawful : volume.Lawful) (made : draft.MadeFor request) (file : FileKey)
    (answer : FileInfo → Answer) : Keeps request (volume.queried file draft answer) := by
  unfold queried
  split
  · exact keeps_refuse lawful made _
  · exact keeps_answered lawful made _ _

theorem keeps_volumeInfo (lawful : volume.Lawful) (made : draft.MadeFor request) :
    Keeps request (volume.volumeInfo draft) := by
  unfold volumeInfo
  split
  · exact keeps_refuse lawful made _
  · next appended => exact keeps_answered lawful (made.append appended) _ _

theorem Lawful.cleanup (lawful : volume.Lawful) {file : FileKey} {delete : Bool} {after : Volume}
    (done : volume.cleanup file delete = some after) : after.Lawful := by
  unfold Volume.cleanup at done
  split at done
  · cases done
    exact lawful
  · split at done
    · cases done
      exact lawful
    · split at done
      · obtain ⟨used, -, same⟩ := Option.bind_eq_some_iff.1 done
        cases same
        exact ⟨lawful.size, fun entry member => lawful.files entry (List.mem_filter.1 member).1,
          lawful.handles⟩
      · cases done
        exact lawful

/-- Whatever is asked of a lawful volume, it stays lawful, and answers with what it was given. -/
theorem keeps_step (lawful : volume.Lawful) (made : draft.MadeFor request) (now : UInt64) :
    Keeps request (volume.step now request draft) := by
  have plain : ∀ {after : Volume}, after.Lawful → Keeps request (some (.ok (0, draft), after)) := by
    intro after lawful'
    refine .some ⟨lawful', fun information completed same => ?_, nofun⟩
    cases same
    exact made
  unfold step
  dsimp only
  split
  · exact keeps_create lawful made now _
  · exact keeps_read lawful made _ _ _
  · split
    · exact keeps_write lawful made now _ _ _
    · exact keeps_refuse lawful made _
  · exact keeps_queried lawful made _ _
  · exact keeps_queried lawful made _ _
  · exact keeps_setInformation lawful made now _ _
  · intro result after same
    obtain ⟨cleaned, done, same'⟩ := Option.map_eq_some_iff.1 same
    exact plain (lawful.cleanup done) result after (congrArg Option.some same')
  · exact plain ⟨lawful.size, lawful.files, fun entry member =>
      lawful.handles entry (List.mem_filter.1 member).1⟩
  · exact keeps_volumeInfo lawful made
  · exact plain lawful
  · exact keeps_refuse lawful made _

/-- As a handler a lawful volume crashes, or it answers at once with a draft for the request. -/
theorem handle_spec (lawful : volume.Lawful) (now : UInt64) (request : Request) :
    let reacted := handle now volume request (.ofRequest request)
    reacted.2.Lawful ∧
      (reacted.1 = .crashed ∨ ∃ status information draft,
        reacted.1 = .complete status information draft ∧ draft.MadeFor request) := by
  have keeps : Keeps request (volume.step now request (.ofRequest request)) :=
    keeps_step lawful .start now
  unfold handle
  split
  · exact ⟨lawful, .inl rfl⟩
  · next stepped =>
    have serves := keeps _ _ stepped
    exact ⟨serves.lawful, .inr ⟨_, _, _, rfl, serves.made _ _ rfl⟩⟩
  · next stepped =>
    have serves := keeps _ _ stepped
    exact ⟨serves.lawful, .inr ⟨_, _, _, rfl, serves.left _ _ rfl⟩⟩

end Steps

end FileBroker.Volume
