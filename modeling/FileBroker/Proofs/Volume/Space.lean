import FileBroker.Proofs.Volume.History
import Mathlib.Data.List.Nodup

/-!
The space on a volume. Every operation keeps count of the bytes in all files by what it changes; the
count is exact after any run, so nothing that is given back was not taken. What a request can fail
at is counting beyond a word, or a file longer than can be held; for each request it is said here
when that happens.
-/
namespace FileBroker.Volume

variable {volume after : Volume} {now : UInt64} {request : Request} {draft : Response.Draft}
  {name : String} {node changed : FileNode} {file : FileKey}

/-! ### Bytes in files -/

/-- Bytes in all of these files. -/
def stored (files : List (String × FileNode)) : Nat := total (files.map fun entry => entry.2.size)

/-- Bytes in all files but the one of this name. -/
def besides (volume : Volume) (name : String) : Nat :=
  stored (volume.files.filter fun entry => entry.1 != name)

theorem stored_append (first second : List (String × FileNode)) :
    stored (first ++ second) = stored first + stored second := by
  unfold stored
  rw [List.map_append]
  exact List.sum_append_nat

theorem stored_singleton (name : String) (node : FileNode) :
    stored [(name, node)] = node.size := Nat.add_zero _

theorem size_le_stored {files : List (String × FileNode)} {entry : String × FileNode}
    (member : entry ∈ files) : entry.2.size ≤ stored files := by
  obtain ⟨before, rest, rfl⟩ := List.append_of_mem member
  rw [List.append_cons, stored_append, stored_append, stored_singleton]
  omega

/-- If no name stands twice, a file stands in one place, where it is changed or taken out. -/
theorem files_split (names : (volume.files.map Prod.fst).Nodup)
    (held : volume.file? name = some node) : ∃ before rest,
      volume.files = before ++ (name, node) :: rest ∧
      (∀ changed, (volume.setFile name changed).files = before ++ (name, changed) :: rest) ∧
      (volume.files.filter fun entry => entry.1 != name) = before ++ rest := by
  obtain ⟨before, rest, whole, -⟩ := List.lookup_eq_some_iff.1 held
  have whole : volume.files = before ++ (name, node) :: rest := whole
  have others : ∀ entry ∈ before ++ rest, entry.1 ≠ name := by
    rw [whole, List.map_append, List.map_cons, List.nodup_middle, ← List.map_append,
      List.nodup_cons] at names
    exact fun entry member same => names.1 (List.mem_map.2 ⟨entry, member, same⟩)
  have kept : ∀ (changed : FileNode), ∀ entry ∈ before ++ rest,
      (if entry.1 == name then (name, changed) else entry) = entry := by
    intro changed entry member
    rw [if_neg (by simpa using others entry member)]
  refine ⟨before, rest, whole, fun changed => ?_, ?_⟩
  · change volume.files.map _ = _
    rw [whole, List.map_append, List.map_cons]
    congr 1
    · exact (List.map_congr_left fun entry member =>
        kept changed entry (List.mem_append_left _ member)).trans (List.map_id _)
    · congr 1
      · simp
      · exact (List.map_congr_left fun entry member =>
          kept changed entry (List.mem_append_right _ member)).trans (List.map_id _)
  · rw [whole, List.filter_append, List.filter_cons_of_neg (by simp), ← List.filter_append,
      List.filter_eq_self.2]
    exact fun entry member => bne_iff_ne.2 (others entry member)

theorem stored_files (names : (volume.files.map Prod.fst).Nodup)
    (held : volume.file? name = some node) :
    stored volume.files = volume.besides name + node.size := by
  obtain ⟨before, rest, whole, -, others⟩ := files_split names held
  rw [besides, others, whole, List.append_cons, stored_append, stored_append, stored_append,
    stored_singleton]
  omega

/-- A change to a file changes the bytes in all files by as much. -/
theorem stored_setFile (names : (volume.files.map Prod.fst).Nodup)
    (held : volume.file? name = some node) (changed : FileNode) :
    stored (volume.setFile name changed).files = volume.besides name + changed.size := by
  obtain ⟨before, rest, -, replaced, others⟩ := files_split names held
  rw [besides, others, replaced, List.append_cons, stored_append, stored_append, stored_append,
    stored_singleton]
  omega

theorem names_setFile (volume : Volume) (name : String) (changed : FileNode) :
    (volume.setFile name changed).files.map Prod.fst = volume.files.map Prod.fst := by
  unfold setFile
  rw [List.map_map]
  refine List.map_congr_left fun entry _ => ?_
  by_cases same : entry.1 = name <;> simp [same]

/-! ### Exact books -/

/-- The bytes in use are those in the files, and there is room for them; no name stands twice, and
all numbers are counted from one. -/
structure Balanced (volume : Volume) : Prop extends Numbered volume where
  names : (volume.files.map Prod.fst).Nodup
  used : volume.used = stored volume.files
  fits : volume.used ≤ volume.size
  positive : ∀ entry ∈ volume.files, 1 ≤ entry.2.index
  opened : ∀ entry ∈ volume.handles, 1 ≤ entry.1

theorem balanced_new (label : String) (size created : UInt64) :
    (new label size.toNat created).Balanced where
  toNumbered := numbered_new label size created
  names := List.nodup_nil
  used := rfl
  fits := Nat.zero_le _
  positive _ member := absurd member List.not_mem_nil
  opened _ member := absurd member List.not_mem_nil

namespace Balanced

theorem used_eq (balanced : volume.Balanced) (held : volume.file? name = some node) :
    volume.used = volume.besides name + node.size :=
  balanced.used.trans (stored_files balanced.names held)

theorem used_lt (balanced : volume.Balanced) : volume.used < Word.limit :=
  Nat.lt_of_le_of_lt balanced.fits balanced.size

/-- Files that share an index share a name, and then they are the same. -/
theorem nodup_indices (balanced : volume.Balanced) :
    (volume.files.map fun entry => entry.2.index).Nodup := by
  refine List.Nodup.map_on (fun entry member other member' same => ?_) balanced.names.of_map
  exact List.inj_on_of_nodup_map balanced.names member member'
    (balanced.own entry member other member' same)

/-- What a file takes up can be given back. -/
theorem give_back (balanced : volume.Balanced) (held : volume.file? name = some node) :
    Word.sub? volume.used node.size = some (volume.besides name) := by
  have exact' := balanced.used_eq held
  unfold Word.sub?
  rw [if_pos (by omega), exact', Nat.add_sub_cancel]

/-- The books are exact after a change to a file if the count was changed by as much. -/
theorem setFile (balanced : volume.Balanced) (held : volume.file? name = some node)
    (index : changed.index = node.index) (short : changed.size ≤ FileNode.longest) {used : Nat}
    (count : used = volume.besides name + changed.size) (fits : used ≤ volume.size) :
    Balanced { volume.setFile name changed with used } where
  toNumbered := balanced.toNumbered.setFile held index (balanced.toLawful.setFile name short used)
  names := (names_setFile volume name changed).symm ▸ balanced.names
  used := count.trans (stored_setFile balanced.names held changed).symm
  fits := fits
  positive entry member := by
    obtain ⟨old, found, rfl⟩ := List.mem_map.1 member
    by_cases same : (old.1 == name) = true
    · rw [if_pos same, index]
      exact balanced.positive _ (mem_files_of_file? held)
    · rw [if_neg same]
      exact balanced.positive old found
  opened := balanced.opened

/-- A change that is none to the size of a file leaves the count alone. -/
theorem setFile_of_size (balanced : volume.Balanced) (held : volume.file? name = some node)
    (index : changed.index = node.index) (size : changed.size = node.size) :
    Balanced (volume.setFile name changed) := by
  refine balanced.setFile held index ?_ ?_ balanced.fits
  · rw [size]
    exact balanced.toLawful.file held
  · rw [size]
    exact balanced.used_eq held

/-- A new file is empty, and has a name and an index that no file had. -/
theorem made (balanced : volume.Balanced) (absent : volume.file? name = none)
    (numbered : Numbered { volume with
      lastIndex := volume.lastIndex + 1
      files := volume.files ++ [(name, ⟨volume.lastIndex + 1, [], now, now, false⟩)] }) :
    Balanced { volume with
      lastIndex := volume.lastIndex + 1
      files := volume.files ++ [(name, ⟨volume.lastIndex + 1, [], now, now, false⟩)] } where
  toNumbered := numbered
  names := by
    rw [List.map_append]
    refine List.nodup_append.2 ⟨balanced.names, List.nodup_singleton _, ?_⟩
    intro other member given single
    obtain ⟨entry, found, rfl⟩ := List.mem_map.1 member
    obtain rfl := List.mem_singleton.1 single
    exact (bne_iff_ne.1 (List.lookup_eq_none_iff.1 absent entry found)).symm
  used := by
    change volume.used = stored (volume.files ++ _)
    rw [stored_append, stored_singleton]
    exact balanced.used
  fits := balanced.fits
  positive entry member := by
    rcases List.mem_append.1 member with before | new
    · exact balanced.positive entry before
    · obtain rfl := List.mem_singleton.1 new
      exact Nat.succ_le_succ (Nat.zero_le _)
  opened := balanced.opened

/-- A file that is removed gives back what it took up. -/
theorem remove (balanced : volume.Balanced) (held : volume.file? name = some node) :
    Balanced { volume with
      used := volume.besides name
      files := volume.files.filter fun entry => entry.1 != name } where
  size := balanced.size
  files entry member := balanced.files entry (List.mem_filter.1 member).1
  handles := balanced.handles
  last := balanced.last
  indices entry member := balanced.indices entry (List.mem_filter.1 member).1
  own entry member other member' :=
    balanced.own entry (List.mem_filter.1 member).1 other (List.mem_filter.1 member').1
  names := (List.filter_sublist.map Prod.fst).nodup balanced.names
  used := rfl
  fits := by
    have count := balanced.used_eq held
    have fits := balanced.fits
    change volume.besides name ≤ volume.size
    omega
  positive entry member := balanced.positive entry (List.mem_filter.1 member).1
  opened := balanced.opened

/-- Handles take up no space. -/
theorem withHandles (balanced : volume.Balanced) {handles : List (Nat × String)} {lastHandle : Nat}
    (given : ∀ entry ∈ handles, 1 ≤ entry.1 ∧ entry.1 ≤ lastHandle) :
    Balanced { volume with handles, lastHandle } where
  size := balanced.size
  files := balanced.files
  handles entry member := (given entry member).2
  last := balanced.last
  indices := balanced.indices
  own := balanced.own
  names := balanced.names
  used := balanced.used
  fits := balanced.fits
  positive := balanced.positive
  opened entry member := (given entry member).1

/-- A handle is given out under the next number. -/
theorem opens (balanced : volume.Balanced) (name : String) :
    Balanced { volume with
      lastHandle := volume.lastHandle + 1
      handles := volume.handles ++ [(volume.lastHandle + 1, name)] } := by
  refine balanced.withHandles fun entry member => ?_
  rcases List.mem_append.1 member with before | new
  · exact ⟨balanced.opened entry before, Nat.le_succ_of_le (balanced.handles entry before)⟩
  · obtain rfl := List.mem_singleton.1 new
    exact ⟨Nat.succ_le_succ (Nat.zero_le _), Nat.le_refl _⟩

theorem close (balanced : volume.Balanced) (file : FileKey) : (volume.close file).Balanced :=
  balanced.withHandles fun entry member =>
    have before := (List.mem_filter.1 member).1
    ⟨balanced.opened entry before, balanced.handles entry before⟩

/-- An open finds a file, unless it needs a new one and the indices are used up. -/
theorem reach (balanced : volume.Balanced) (now : UInt64) (name : String)
    (disposition : Disposition) :
    (volume.reach now name disposition = none ∧ volume.file? name = none ∧
        Word.limit ≤ volume.lastIndex + 1) ∨
      ∃ node reached, volume.reach now name disposition = some (node, reached) ∧
        reached.Balanced ∧ ¬ (volume.file? name = none ∧ Word.limit ≤ volume.lastIndex + 1) := by
  have numbered : ∀ node reached, volume.reach now name disposition = some (node, reached) →
      reached.Numbered := fun _ _ found => balanced.toNumbered.reach found
  cases held : volume.file? name with
  | none =>
    unfold Volume.reach at numbered ⊢
    simp only [held] at numbered ⊢
    by_cases fresh : volume.lastIndex + 1 < Word.limit
    · have next : Word.add? volume.lastIndex 1 = some (volume.lastIndex + 1) :=
        Word.check?_eq_some_iff.2 ⟨fresh, rfl⟩
      rw [next] at numbered ⊢
      exact .inr ⟨_, _, rfl, balanced.made held (numbered _ _ rfl), by omega⟩
    · have next : Word.add? volume.lastIndex 1 = none := if_neg fresh
      rw [next]
      exact .inl ⟨rfl, trivial, Nat.le_of_not_lt fresh⟩
  | some old =>
    right
    unfold Volume.reach
    simp only [held]
    by_cases empties : disposition.truncates = true
    · have count := balanced.used_eq held
      have fits := balanced.fits
      have kept : ({ old with data := [], modified := now } : FileNode).index = old.index := rfl
      have emptied : Balanced { volume.setFile name { old with data := [], modified := now } with
          used := volume.besides name } :=
        balanced.setFile held kept (Nat.zero_le _) rfl (by omega)
      rw [if_pos empties, balanced.give_back held]
      exact ⟨_, _, rfl, emptied, by simp⟩
    · rw [if_neg empties]
      exact ⟨_, _, rfl, balanced, by simp⟩

/-- Giving back never fails. -/
theorem cleanup (balanced : volume.Balanced) (file : FileKey) (delete : Bool) :
    ∃ after, volume.cleanup file delete = some after ∧ after.Balanced := by
  unfold Volume.cleanup
  split
  · exact ⟨_, rfl, balanced⟩
  · split
    · exact ⟨_, rfl, balanced⟩
    · next node held =>
      split
      · rw [balanced.give_back held]
        exact ⟨_, rfl, balanced.remove held⟩
      · exact ⟨_, rfl, balanced⟩

end Balanced

/-! ### What a step can fail at -/

/-- With a file of this size in place of the one there, the bytes in all files are more than a word
can count, or the file is longer than can be held though there is room for it. -/
def Strains (volume : Volume) (name : String) (size : Nat) : Prop :=
  Word.limit ≤ volume.besides name + size ∨
    volume.besides name + size ≤ volume.size ∧ FileNode.longest < size

/-- What a request asks for takes the volume beyond the words it counts with: the numbers for
handles or files are used up, or a file is to end too far out. -/
def Overflows (volume : Volume) (request : Request) : Prop :=
  match request.command with
  | .create options => ∃ name disposition,
      request.resolveText options.fileName = .ok name ∧
      Disposition.ofOptions? options.options = some disposition ∧
      disposition.refusal (volume.file? name).isSome = none ∧
      (volume.file? name = none ∧ Word.limit ≤ volume.lastIndex + 1 ∨
        Word.limit ≤ volume.lastHandle + 1)
  | .write file offset data _ _ => ∃ bytes name node,
      request.resolve data = .ok bytes ∧ volume.node? file = .ok (name, node) ∧
      offset.toNat + bytes.length < Word.limit ∧
      volume.Strains name (offset.toNat + bytes.length)
  | .setInformation file (.endOfFile size _) => ∃ name node,
      volume.node? file = .ok (name, node) ∧
      (volume.Strains name size.toNat ∨
        volume.besides name + size.toNat ≤ volume.size ∧ Word.limit ≤ volume.used + size.toNat)
  | _ => False

/-- A step faults in this case and in no other, and otherwise leaves the books exact. -/
structure Exact (fault : Prop) (step : Step) : Prop where
  faults : step = none ↔ fault
  balanced : ∀ result after, step = some (result, after) → after.Balanced

namespace Exact

variable {fault : Prop} {step : Step}

theorem done (balanced : volume.Balanced) (result : Result) :
    Exact False (some (result, volume)) where
  faults := by simp
  balanced _ _ same := by
    cases same
    exact balanced

theorem refuse (balanced : volume.Balanced) (status : Status) :
    Exact False (volume.refuse draft status) := done balanced _

theorem none : Exact True none where
  faults := by simp
  balanced result after same := by cases same

theorem congr {fault' : Prop} (exact' : Exact fault step) (same : fault' ↔ fault) :
    Exact fault' step :=
  ⟨exact'.faults.trans same.symm, exact'.balanced⟩

theorem served (exact' : Exact fault step) {result : Result} (done : step = some (result, after)) :
    ¬ fault := by
  intro faulty
  rw [exact'.faults.2 faulty] at done
  cases done

/-- A sum that is not a word is a fault; otherwise the step goes on with it. -/
theorem add {a b : Nat} {next : Nat → Step}
    (rest : a + b < Word.limit → Exact fault (next (a + b))) :
    Exact (Word.limit ≤ a + b ∨ a + b < Word.limit ∧ fault) (Word.add? a b >>= next) := by
  by_cases fits : a + b < Word.limit
  · have sum : Word.add? a b = some (a + b) := Word.check?_eq_some_iff.2 ⟨fits, rfl⟩
    rw [sum]
    exact (rest fits).congr (by simp [fits, Nat.not_le.2 fits])
  · have sum : Word.add? a b = .none := if_neg fits
    rw [sum]
    exact Exact.none.congr (by simp [Nat.le_of_not_lt fits])

/-- What is refused does not fault. -/
theorem check {refused : Prop} [Decidable refused] {first second : Step}
    (refuses : Exact False first) (rest : ¬ refused → Exact fault second) :
    Exact (¬ refused ∧ fault) (if refused then first else second) := by
  by_cases met : refused
  · rw [if_pos met]
    exact refuses.congr (by simp [met])
  · rw [if_neg met]
    exact (rest met).congr (by simp [met])

/-- A file that cannot be held is a fault. -/
theorem resize {node : FileNode} {size : Nat} {next : FileNode → Step}
    (rest : ∀ resized, node.resize? size = some resized → Exact False (next resized)) :
    Exact (FileNode.longest < size) (node.resize? size >>= next) := by
  by_cases short : size ≤ FileNode.longest
  · obtain ⟨resized, done, -⟩ := resize?_of_le node short
    have onward := rest resized done
    rw [done]
    exact onward.congr (by simp [short])
  · have missing : node.resize? size = .none := if_neg short
    rw [missing]
    exact Exact.none.congr (by simpa using short)

end Exact

/-! ### Requests -/

theorem exact_create (balanced : volume.Balanced) {options : OpenOptions}
    (command : request.command = .create options) :
    Exact (volume.Overflows request) (volume.create now request options draft) := by
  unfold create
  cases named : request.resolveText options.fileName with
  | error error => exact (Exact.refuse balanced _).congr (by simp [Overflows, command, named])
  | ok name =>
    cases known : Disposition.ofOptions? options.options with
    | none => exact (Exact.refuse balanced _).congr (by simp [Overflows, command, known])
    | some disposition =>
      dsimp only
      cases refused : disposition.refusal (volume.file? name).isSome with
      | some status =>
        exact (Exact.refuse balanced _).congr (by simp [Overflows, command, named, known, refused])
      | none =>
        dsimp only
        have same : volume.Overflows request ↔
            (volume.file? name = none ∧ Word.limit ≤ volume.lastIndex + 1 ∨
              Word.limit ≤ volume.lastHandle + 1) := by
          simp [Overflows, command, named, known, refused]
        rcases balanced.reach now name disposition with
          ⟨missing, spent⟩ | ⟨node, reached, found, balanced', fresh⟩
        · rw [missing]
          exact Exact.none.congr (by simp [same, spent])
        · obtain ⟨-, last, -⟩ := handles_reached found
          rw [found]
          refine (Exact.add fun _ => .done (balanced'.opens name) _).congr ?_
          rw [same, last]
          simp only [and_false, or_false, fresh, false_or]

theorem exact_read (balanced : volume.Balanced) (file : FileKey) (offset : Nat) (length : UInt32) :
    Exact False (volume.read file offset length.toNat draft) := by
  unfold read
  split
  · exact .refuse balanced _
  · next name node found =>
    have short := balanced.open_file found
    have small := length.toNat_lt
    have bound : FileNode.longest + 2 ^ 32 < Word.limit := by decide
    split
    · exact .refuse balanced _
    · next inside =>
      have stop : Word.add? offset length.toNat = some (offset + length.toNat) :=
        Word.check?_eq_some_iff.2 ⟨by omega, rfl⟩
      rw [stop]
      dsimp only [Option.bind_eq_bind, Option.bind_some]
      split
      · exact .refuse balanced _
      · exact .done balanced _

theorem exact_write (balanced : volume.Balanced) {offset : UInt64} {data : Region} {key : UInt32}
    {constrained : Bool} {bytes : Bytes}
    (command : request.command = .write file offset data key constrained)
    (resolved : request.resolve data = .ok bytes) :
    Exact (volume.Overflows request) (volume.write now file offset.toNat bytes draft) := by
  unfold write
  cases found : volume.node? file with
  | error status =>
    exact (Exact.refuse balanced _).congr (by simp [Overflows, command, resolved, found])
  | ok entry =>
    obtain ⟨name, node⟩ := entry
    have held := (node?_eq_ok.1 found).2
    have count := balanced.used_eq held
    have fits := balanced.fits
    have below := balanced.used_lt
    have short := balanced.file held
    have same : volume.Overflows request ↔ offset.toNat + bytes.length < Word.limit ∧
        volume.Strains name (offset.toNat + bytes.length) := by
      simp [Overflows, command, resolved, found]
    dsimp only
    by_cases within : offset.toNat + bytes.length < Word.limit
    · have stop : Word.add? offset.toNat bytes.length = some (offset.toNat + bytes.length) :=
        Word.check?_eq_some_iff.2 ⟨within, rfl⟩
      rw [stop]
      refine (Exact.add fun _ => .check (.refuse balanced _) fun room =>
        .resize fun grown resized => .done ?_ _).congr ?_
      · obtain ⟨size, longest⟩ := size_resize? resized
        have length : (Bytes.overwrite grown.data offset.toNat bytes).length
            = max (offset.toNat + bytes.length) node.size := by
          rw [Bytes.length_overwrite]
          · exact size
          · change _ ≤ grown.size
            omega
        have index : grown.index = node.index := by
          rw [FileNode.resize?_eq_some resized]
        refine balanced.setFile held ?_ ?_ ?_ (Nat.not_lt.1 room)
        · exact index
        · exact Nat.le_trans (Nat.le_of_eq length) longest
        · change _ = _ + (Bytes.overwrite grown.data offset.toNat bytes).length
          omega
      · rw [same, Strains]
        omega
    · have stop : Word.add? offset.toNat bytes.length = none := if_neg within
      rw [stop]
      exact (Exact.refuse balanced _).congr (by simp [same, within])

/-- Whether there is room for a file of another size, counted over all files. -/
theorem hasRoom?_eq (balanced : volume.Balanced) (held : volume.file? name = some node)
    (size : Nat) :
    volume.hasRoom? node.size size = if volume.besides name + size < Word.limit then
      some (decide (volume.besides name + size ≤ volume.size)) else none := by
  have count := balanced.used_eq held
  have fits := balanced.fits
  have below := balanced.used_lt
  unfold hasRoom?
  by_cases grows : node.size < size
  · have sum : volume.used + (size - node.size) = volume.besides name + size := by omega
    rw [if_pos grows, Word.add?, sum, Word.check?]
    split <;> rfl
  · rw [if_neg grows, if_pos (by omega), decide_eq_true (by omega)]

theorem exact_setEnd (balanced : volume.Balanced) (held : volume.file? name = some node)
    (size : Nat) :
    Exact (volume.Strains name size ∨
        volume.besides name + size ≤ volume.size ∧ Word.limit ≤ volume.used + size)
      (volume.setEnd now name node size draft) := by
  have count := balanced.used_eq held
  have fits := balanced.fits
  have word := balanced.size
  unfold setEnd
  rw [hasRoom?_eq balanced held]
  by_cases within : volume.besides name + size < Word.limit
  · rw [if_pos within]
    by_cases room : volume.besides name + size ≤ volume.size
    · rw [decide_eq_true room]
      refine (Exact.add fun _ => .resize fun resized ends => .done ?_ _).congr ?_
      · obtain ⟨length, longest⟩ := size_resize? ends
        have index : resized.index = node.index := by
          rw [FileNode.resize?_eq_some ends]
        refine balanced.setFile held ?_ ?_ ?_ ?_
        · exact index
        · exact Nat.le_trans (Nat.le_of_eq length) longest
        · change _ = _ + resized.size
          omega
        · omega
      · rw [Strains]
        omega
    · rw [decide_eq_false room]
      refine (Exact.refuse balanced _).congr (iff_of_false ?_ id)
      rw [Strains]
      omega
  · rw [if_neg within]
    refine Exact.none.congr (iff_of_true ?_ trivial)
    rw [Strains]
    omega

theorem exact_setInformation (balanced : volume.Balanced) {change : FileChange}
    (command : request.command = .setInformation file change) :
    Exact (volume.Overflows request) (volume.setInformation now file change draft) := by
  unfold setInformation
  cases found : volume.node? file with
  | error status =>
    refine (Exact.refuse balanced _).congr ?_
    cases change <;> simp [Overflows, command, found]
  | ok entry =>
    obtain ⟨name, node⟩ := entry
    have held := (node?_eq_ok.1 found).2
    have changes : ∀ changed : FileNode, changed.index = node.index → changed.size = node.size →
        Exact False
          (some (answered draft 0 (.setInformation changed.info), volume.setFile name changed)) :=
      fun changed index size => .done (balanced.setFile_of_size held index size) _
    cases change with
    | endOfFile size advanceOnly =>
      exact (exact_setEnd balanced held size.toNat).congr (by simp [Overflows, command, found])
    | disposition delete =>
      exact (changes { node with deletePending := delete, modified := now } rfl rfl).congr
        (by simp [Overflows, command])
    | basic =>
      exact (changes { node with modified := now } rfl rfl).congr (by simp [Overflows, command])
    | allocation size =>
      exact (changes { node with modified := now } rfl rfl).congr (by simp [Overflows, command])
    | rename newName replace =>
      exact (Exact.refuse balanced _).congr (by simp [Overflows, command])

theorem exact_queried (balanced : volume.Balanced) (file : FileKey) (answer : FileInfo → Answer) :
    Exact False (volume.queried file draft answer) := by
  unfold queried
  split
  · exact .refuse balanced _
  · exact .done balanced _

theorem exact_volumeInfo (balanced : volume.Balanced) : Exact False (volume.volumeInfo draft) := by
  unfold volumeInfo
  split
  · exact .refuse balanced _
  · exact .done balanced _

/-- Whatever is asked of a volume whose books are exact, they stay so; and the step faults only if
what is asked for is beyond words. -/
theorem exact_step (balanced : volume.Balanced) (now : UInt64) (request : Request)
    (draft : Response.Draft) :
    Exact (volume.Overflows request) (volume.step now request draft) := by
  unfold step
  cases command : request.command with
  | create options => exact exact_create balanced command
  | read file offset length key =>
    exact (exact_read balanced file offset.toNat length).congr (by simp [Overflows, command])
  | write file offset data key constrained =>
    dsimp only
    split
    · next resolved => exact exact_write balanced command resolved
    · next failed =>
      exact (Exact.refuse balanced _).congr (by simp [Overflows, command, failed])
  | setInformation file change => exact exact_setInformation balanced command
  | cleanup file fileName delete =>
    obtain ⟨after, done, kept⟩ := balanced.cleanup file delete
    dsimp only
    rw [done]
    exact (Exact.done kept _).congr (by simp [Overflows, command])
  | close file =>
    exact (Exact.done (balanced.close file) _).congr (by simp [Overflows, command])
  | queryInformation file | flushBuffers file =>
    exact (exact_queried balanced file _).congr (by simp [Overflows, command])
  | queryVolumeInformation =>
    exact (exact_volumeInfo balanced).congr (by simp [Overflows, command])
  | shutdown => exact (Exact.done balanced _).congr (by simp [Overflows, command])
  | _ => exact (Exact.refuse balanced _).congr (by simp [Overflows, command])

/-- A volume crashes on a request if that is beyond words, and only then; its books stay exact. -/
theorem handle_exact (balanced : volume.Balanced) (now : UInt64) (request : Request) :
    let reacted := handle now volume request (.ofRequest request)
    (reacted.1 = .crashed ↔ volume.Overflows request) ∧ reacted.2.Balanced := by
  have exact' := exact_step balanced now request (.ofRequest request)
  unfold handle
  split
  · next missing => exact ⟨by simp [exact'.faults.1 missing], balanced⟩
  · next stepped => exact ⟨by simp [exact'.served stepped], exact'.balanced _ _ stepped⟩
  · next stepped => exact ⟨by simp [exact'.served stepped], exact'.balanced _ _ stepped⟩

theorem Balanced.sends {response : Response} (balanced : volume.Balanced)
    (sends : volume.Sends now request response after) : after.Balanced := by
  obtain ⟨draft, handled, -⟩ := sends
  have kept := (handle_exact balanced now request).2
  rwa [handled] at kept

theorem Balanced.runs (balanced : volume.Balanced) {turns : List Turn}
    (runs : volume.Runs turns) : (volume.ends turns).Balanced :=
  runs_induction runs balanced fun _ _ _ _ kept sends => kept.sends sends

theorem size_sends {response : Response} (sends : volume.Sends now request response after) :
    after.size = volume.size := by
  cases course_of_sends sends with
  | refused => rfl
  | granted fulfils =>
    cases fulfils with
    | opened command named known allowed found =>
      rcases reach_cases found with ⟨-, -, -, rfl⟩ | ⟨old, -, ⟨-, -, used, rfl⟩ | ⟨-, -, rfl⟩⟩ <;>
        rfl
    | _ => rfl

theorem size_runs {turns : List Turn} (runs : volume.Runs turns) :
    (volume.ends turns).size = volume.size := by
  induction turns generalizing volume with
  | nil => rfl
  | cons turn rest ih =>
    obtain ⟨⟨now, sends⟩, onward⟩ := runs
    exact (ih onward).trans (size_sends sends)

/-- What a volume reports of itself. -/
theorem info_of_sends {response : Response} (asked : request.command = .queryVolumeInformation)
    (sends : volume.Sends now request response after)
    (success : response.status.isSuccess = true) : after = volume ∧
      ∃ label, response.answer = .queryVolumeInformation ⟨UInt64.ofNat volume.size,
        UInt64.ofNat (volume.size - volume.used), volume.created, label⟩ := by
  have unused : request.command.usedFile = none := congrArg Command.usedFile asked
  cases (course_of_sends sends).fulfils success with
  | told used | changed used => cases unused.symm.trans used
  | opened command | kept command | removed command | closed command | shutdown command =>
    cases asked.symm.trans command
  | described => exact ⟨rfl, _, rfl⟩

/-- After any run the bytes in use are those in all files, and there is room for them: what a file
takes up can be given back, and what is reported as free is free. No two files share an index, and
indices and handles are numbered from one to the last that was given out. -/
theorem space_exact (label : String) (size created : UInt64) {turns : List Turn}
    (runs : (new label size.toNat created).Runs turns) :
    let volume := (new label size.toNat created).ends turns
    volume.size = size.toNat ∧ volume.used = stored volume.files ∧ volume.used ≤ volume.size ∧
    (∀ entry ∈ volume.files, entry.2.size ≤ volume.used) ∧
    (∀ now request response after, request.command = .queryVolumeInformation →
      volume.Sends now request response after → response.status.isSuccess = true →
      ∃ info, response.answer = .queryVolumeInformation info ∧
        info.totalSize.toNat = volume.size ∧
        info.freeSize.toNat + stored volume.files = volume.size) ∧
    (volume.files.map fun entry => entry.2.index).Nodup ∧
    (∀ entry ∈ volume.files, 1 ≤ entry.2.index ∧ entry.2.index ≤ volume.lastIndex) ∧
    ∀ entry ∈ volume.handles, 1 ≤ entry.1 ∧ entry.1 ≤ volume.lastHandle := by
  intro volume
  have balanced : volume.Balanced := (balanced_new label size created).runs runs
  refine ⟨size_runs runs, balanced.used, balanced.fits,
    fun entry member => balanced.used ▸ size_le_stored member, ?_, balanced.nodup_indices,
    fun entry member => ⟨balanced.positive entry member, balanced.indices entry member⟩,
    fun entry member => ⟨balanced.opened entry member, balanced.handles entry member⟩⟩
  intro now request response after asked sends success
  obtain ⟨-, region, answer⟩ := info_of_sends asked sends success
  have word := balanced.size
  have fits := balanced.fits
  refine ⟨_, answer, UInt64.toNat_ofNat_of_lt' word, ?_⟩
  rw [← balanced.used]
  dsimp only
  rw [UInt64.toNat_ofNat_of_lt' (Nat.lt_of_le_of_lt (Nat.sub_le _ _) word)]
  omega

/-- One byte is written to the file. -/
def writtenA : Turn where
  request := ⟨.v1, ⟨1⟩, .write ⟨1, 1⟩ 0 ⟨80, 1⟩ 0 false, [7]⟩
  response := ⟨.v1, ⟨1⟩, ⟨.success, 1⟩, .write { blank 1 with data := [7] }.info, []⟩
  after := holding (some { blank 1 with data := [7] }) 1 1

theorem space_exact_oneByte :
    writtenA.after.used = 1 ∧ writtenA.after.used = stored writtenA.after.files ∧
      writtenA.after.used ≤ writtenA.after.size ∧
      (writtenA.after.files.map fun entry => entry.2.index).Nodup := by
  obtain ⟨-, count, fits, -, -, distinct, -, -⟩ :=
    @space_exact "" 16 0 [openedA 1 1, writtenA]
      ⟨⟨0, _, by rfl, by rfl⟩, ⟨0, _, by rfl, by rfl⟩, trivial⟩
  exact ⟨rfl, count, fits, distinct⟩

end FileBroker.Volume
