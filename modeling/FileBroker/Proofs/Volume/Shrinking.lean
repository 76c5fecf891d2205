import FileBroker.Proofs.Volume.Overflow
import FileBroker.Proofs.Volume.Refusal

/-!
How files get shorter. A file is emptied by an open that supersedes or overwrites it, and cut off
where its end is set; nothing else takes bytes from it, short of removing it. A new end that is only
to advance the old one is set like any other: it cuts off what is behind it.
-/
namespace FileBroker.Volume

variable {volume after : Volume} {now : UInt64} {request : Request} {response : Response}
  {name : String} {old : FileNode}

/-! ### One request -/

/-- A request asks for a file to be emptied, or for an end of it that is before its old one. -/
inductive Shortens (volume : Volume) (request : Request) (name : String) (old : FileNode) :
    Prop where
  | emptied {options : OpenOptions} {disposition : Disposition}
      (command : request.command = .create options)
      (named : request.resolveText options.fileName = .ok name)
      (known : Disposition.ofOptions? options.options = some disposition)
      (empties : disposition ∈ [.supersede, .overwrite, .overwriteOrCreate])
      (filled : 0 < old.size)
  | cut {file : FileKey} {size : UInt64} {advanceOnly : Bool}
      (command : request.command = .setInformation file (.endOfFile size advanceOnly))
      (named : volume.nameOf? file = some name) (before : size.toNat < old.size)

/-- A request asks for a file to be removed. -/
def Removes (volume : Volume) (request : Request) (name : String) (old : FileNode) : Prop :=
  ∃ file fileName delete, request.command = .cleanup file fileName delete ∧
    volume.nameOf? file = some name ∧ (delete || old.deletePending) = true

/-- A file is still there after a request. It is shorter just if that was asked for and granted, and
what is left of it then is its front. -/
def Lasts (volume : Volume) (request : Request) (response : Response) (after : Volume)
    (name : String) (old : FileNode) : Prop :=
  ∃ node, after.file? name = some node ∧ node.index = old.index ∧
    (node.size < old.size ↔ response.status = .success ∧ volume.Shortens request name old) ∧
    (node.size < old.size → node.data <+: old.data)

theorem Disposition.mem_of_truncates {disposition : Disposition} :
    disposition.truncates = true ↔
      disposition ∈ [.supersede, .overwrite, .overwriteOrCreate] := by
  cases disposition <;> decide

/-- A file that no request is about stays as it is. -/
theorem lasts_of_unasked (same : after.file? name = some old)
    (unasked : ¬ (response.status = .success ∧ volume.Shortens request name old)) :
    volume.Lasts request response after name old :=
  ⟨old, same, rfl, iff_of_false (Nat.lt_irrefl _) unasked, fun _ => List.prefix_refl _⟩

/-- A file that is at least as long as before was not asked to be shorter. -/
theorem lasts_of_longer {node : FileNode} (found : after.file? name = some node)
    (index : node.index = old.index) (longer : old.size ≤ node.size)
    (unasked : ¬ volume.Shortens request name old) :
    volume.Lasts request response after name old :=
  ⟨node, found, index, iff_of_false (Nat.not_lt.2 longer) fun asked => unasked asked.2,
    fun shorter => absurd shorter (Nat.not_lt.2 longer)⟩

/-- Only an open and a new end ask for a file to be shorter. -/
theorem Shortens.asks (shortens : volume.Shortens request name old) :
    (∃ options, request.command = .create options) ∨
      ∃ file size advanceOnly,
        request.command = .setInformation file (.endOfFile size advanceOnly) := by
  cases shortens with
  | emptied command => exact .inl ⟨_, command⟩
  | cut command => exact .inr ⟨_, _, _, command⟩

/-- What an open has to be to ask for a file to be shorter. -/
theorem Shortens.by_open (shortens : volume.Shortens request name old) {options : OpenOptions}
    {opened : String} {disposition : Disposition} (command : request.command = .create options)
    (named : request.resolveText options.fileName = .ok opened)
    (known : Disposition.ofOptions? options.options = some disposition) :
    opened = name ∧ disposition.truncates = true ∧ 0 < old.size := by
  rcases shortens with ⟨command', named', known', empties, filled⟩ | ⟨command', -, -⟩
  · cases command.symm.trans command'
    cases named.symm.trans named'
    cases known.symm.trans known'
    exact ⟨rfl, Disposition.mem_of_truncates.2 empties, filled⟩
  · cases command.symm.trans command'

/-- What a request that uses a file has to be to ask for one to be shorter. -/
theorem Shortens.by_use (shortens : volume.Shortens request name old) {file : FileKey}
    {used : String} (works : request.command.usedFile = some file)
    (named : volume.nameOf? file = some used) :
    used = name ∧ ∃ size advanceOnly,
      request.command = .setInformation file (.endOfFile size advanceOnly) ∧
        size.toNat < old.size := by
  rcases shortens with ⟨command, -⟩ | ⟨command, named', before⟩
  · rw [command] at works
    cases works
  · rw [command] at works
    cases works
    cases named.symm.trans named'
    exact ⟨rfl, _, _, command, before⟩

/-- What is left of a file that is cut off is its front. -/
theorem FileNode.data_ended_prefix {node : FileNode} {now : UInt64} {size : Nat}
    (before : size ≤ node.size) : (node.ended now size).data <+: node.data := by
  have none : size - node.size = 0 := Nat.sub_eq_zero_of_le before
  rw [FileNode.ended, none, List.replicate_zero, List.append_nil]
  exact List.take_prefix _ _

/-- An open leaves a file as it is, or empties it. -/
theorem lasts_of_opened {options : OpenOptions} {opened : String} {disposition : Disposition}
    {node : FileNode} {reached : Volume} (success : response.status = .success)
    (command : request.command = .create options)
    (named : request.resolveText options.fileName = .ok opened)
    (known : Disposition.ofOptions? options.options = some disposition)
    (found : volume.reach now opened disposition = some (node, reached))
    (files : after.file? = reached.file?) (held : volume.file? name = some old) :
    volume.Lasts request response after name old := by
  rw [file?_reached found] at files
  by_cases same : name = opened
  · subst same
    have at' : after.file? name = some node := by rw [files, Function.update_self]
    rcases reach_cases found with
      ⟨absent, -⟩ | ⟨was, held', ⟨empties, rfl, -⟩ | ⟨keeps, rfl, -⟩⟩
    · cases absent.symm.trans held
    · cases held.symm.trans held'
      refine ⟨_, at', rfl, ⟨fun filled => ⟨success, ?_⟩, fun asks => ?_⟩, fun _ => ?_⟩
      · exact .emptied command named known (Disposition.mem_of_truncates.1 empties) filled
      · exact (asks.2.by_open command named known).2.2
      · exact List.nil_prefix
    · cases held.symm.trans held'
      refine lasts_of_unasked at' fun asks => ?_
      have empties := (asks.2.by_open command named known).2.1
      rw [keeps] at empties
      cases empties
  · refine lasts_of_unasked ?_ fun asks => same (asks.2.by_open command named known).1.symm
    rw [files, Function.update_of_ne same, held]

/-- A change makes a file shorter only by setting its end. -/
theorem lasts_of_changed {file : FileKey} {used : String} {node changed : FileNode} {total : Nat}
    (works : request.command.usedFile = some file) (held' : volume.node? file = .ok (used, node))
    (takes : node.Takes now request response changed) (held : volume.file? name = some old) :
    volume.Lasts request response { volume.setFile used changed with used := total } name old := by
  obtain ⟨named, found⟩ := node?_eq_ok.1 held'
  have files := file?_changed found changed total
  by_cases same : name = used
  · subst same
    cases held.symm.trans found
    have at' : file? { volume.setFile name changed with used := total } name = some changed := by
      rw [files, Function.update_self]
    have index := index_of_takes takes
    have success := (takes_valid takes).1
    cases takes with
    | write command =>
      refine lasts_of_longer at' index ?_ fun asks => ?_
      · rw [FileNode.size_written]
        exact Nat.le_max_right _ _
      · obtain ⟨-, _, _, command', -⟩ := asks.by_use works named
        cases command.symm.trans command'
    | @endOfFile _ size advanceOnly command =>
      have key := Option.some.inj ((congrArg Command.usedFile command).symm.trans works)
      refine ⟨_, at', index, ?_, fun shorter => ?_⟩
      · rw [FileNode.size_ended]
        refine ⟨fun before => ⟨success, .cut command (key ▸ named) before⟩, fun asks => ?_⟩
        obtain ⟨-, _, _, command', before⟩ := asks.2.by_use works named
        cases command.symm.trans command'
        exact before
      · rw [FileNode.size_ended] at shorter
        exact FileNode.data_ended_prefix (Nat.le_of_lt shorter)
    | disposition command | basic command | allocation command =>
      refine lasts_of_longer at' index (Nat.le_refl _) fun asks => ?_
      obtain ⟨-, _, _, command', -⟩ := asks.by_use works named
      cases command.symm.trans command'
  · refine lasts_of_unasked ?_ fun asks => same (asks.2.by_use works named).1.symm
    rw [files, Function.update_of_ne same, held]

/-- After any request a file is gone with a cleanup, or is still there, and shorter only if that was
asked for. -/
theorem removed_or_lasts (sends : volume.Sends now request response after)
    (held : volume.file? name = some old) :
    volume.Removes request name old ∧ after.file? name = none ∨
      volume.Lasts request response after name old := by
  cases course_of_sends sends with
  | refused refuses =>
    refine .inr (lasts_of_unasked held fun asks => ?_)
    have failed : (request.refused _).status.isSuccess = false := refuses.failed.1
    rw [asks.1] at failed
    cases failed
  | granted fulfils =>
    have success := fulfils.valid.1
    cases fulfils with
    | opened command named known allowed found fresh =>
      exact .inr (lasts_of_opened success command named known found rfl held)
    | told works held' tells =>
      refine .inr (lasts_of_unasked held fun asks => ?_)
      rcases asks.2.asks with ⟨_, command'⟩ | ⟨_, _, _, command'⟩ <;>
        cases tells with
        | read command | queryInformation command | flushBuffers command =>
          cases command.symm.trans command'
    | changed works held' takes total => exact .inr (lasts_of_changed works held' takes held)
    | @removed file fileName delete other node command held' goes total =>
      obtain ⟨named, found⟩ := node?_eq_ok.1 held'
      have files := file?_removed volume other total
      by_cases same : name = other
      · subst same
        cases held.symm.trans found
        refine .inl ⟨⟨file, fileName, delete, command, named, goes⟩, ?_⟩
        rw [files, Function.update_self]
      · refine .inr (lasts_of_unasked ?_ fun asks => ?_)
        · rw [files, Function.update_of_ne same, held]
        · rcases asks.2.asks with ⟨_, command'⟩ | ⟨_, _, _, command'⟩ <;>
            cases command.symm.trans command'
    | kept command | closed command | described command | shutdown command =>
      refine .inr (lasts_of_unasked held fun asks => ?_)
      rcases asks.2.asks with ⟨_, command'⟩ | ⟨_, _, _, command'⟩ <;>
        cases command.symm.trans command'

/-! ### Runs -/

/-- A request that asks for no file to be shorter or to be removed, whatever the volume. -/
def Spares (request : Request) : Prop :=
  match request.command with
  | .create options => ∀ disposition, Disposition.ofOptions? options.options = some disposition →
      disposition.truncates = false
  | .setInformation _ (.endOfFile _ _) | .cleanup _ _ _ => False
  | _ => True

theorem Shortens.not_spares (shortens : volume.Shortens request name old) : ¬ Spares request := by
  unfold Spares
  cases shortens with
  | emptied command named known empties filled =>
    rw [command]
    intro spares
    have kept := spares _ known
    rw [Disposition.mem_of_truncates.2 empties] at kept
    cases kept
  | cut command =>
    rw [command]
    exact id

theorem Removes.not_spares (removes : volume.Removes request name old) : ¬ Spares request := by
  obtain ⟨file, fileName, delete, command, -⟩ := removes
  unfold Spares
  rw [command]
  exact id

/-- Nobody who spares the files makes one shorter. -/
theorem longer_runs {turns : List Turn} (runs : volume.Runs turns)
    (spares : ∀ turn ∈ turns, Spares turn.request) (held : volume.file? name = some old) :
    ∃ node, (volume.ends turns).file? name = some node ∧ node.index = old.index ∧
      old.size ≤ node.size := by
  refine @runs_induction volume (fun volume => ∃ node, volume.file? name = some node ∧
    node.index = old.index ∧ old.size ≤ node.size) turns runs ⟨old, held, rfl, Nat.le_refl _⟩ ?_
  rintro turn member volume now ⟨node, found, index, longer⟩ sends
  rcases removed_or_lasts sends found with ⟨removes, -⟩ | ⟨next, found', index', shorter, -⟩
  · exact absurd (spares turn member) removes.not_spares
  · refine ⟨next, found', index'.trans index, Nat.le_of_not_lt fun less => ?_⟩
    exact (shorter.1 (Nat.lt_of_lt_of_le less longer)).2.not_spares (spares turn member)

/-- A file only gets shorter when asked to. In every run, a file that is there before a request is
gone after it only by a cleanup that was to remove it. It is shorter after it just if the request
was granted and was an open of its name that supersedes or overwrites, or set an end of the file
that is before the old one, whether or not that was only to advance the end; what is left of it is
its front. So a file is never shorter after a run without such requests. -/
theorem shrinks_only_when_asked {turns : List Turn} (runs : volume.Runs turns) :
    (∀ earlier turn later, turns = earlier ++ turn :: later →
      ∀ name old, (volume.ends earlier).file? name = some old →
        (volume.ends earlier).Removes turn.request name old ∧ turn.after.file? name = none ∨
          (volume.ends earlier).Lasts turn.request turn.response turn.after name old) ∧
    ∀ name old, volume.file? name = some old → (∀ turn ∈ turns, Spares turn.request) →
      ∃ node, (volume.ends turns).file? name = some node ∧ node.index = old.index ∧
        old.size ≤ node.size := by
  refine ⟨?_, fun name old held spares => longer_runs runs spares held⟩
  rintro earlier turn later rfl name old held
  obtain ⟨-, ⟨now, sends⟩, -⟩ := runs_append.1 runs
  exact removed_or_lasts sends held

/-- The end of the file is only to be advanced, to where the file starts. -/
def advancedA : Turn where
  request := ⟨.v1, ⟨1⟩, .setInformation ⟨1, 1⟩ (.endOfFile 0 true), []⟩
  response := ⟨.v1, ⟨1⟩, ⟨.success, 0⟩, .setInformation (blank 1).info, []⟩
  after := holding (some (blank 1)) 1 1

/-- The byte that was written is gone. -/
theorem shrinks_only_when_asked_advancedA :
    writtenA.after.file? "a" = some { blank 1 with data := [7] } ∧
      ∃ node, advancedA.after.file? "a" = some node ∧ node.size < 1 := by
  have runs : (new "" 16 0).Runs [openedA 1 1, writtenA, advancedA] :=
    ⟨⟨0, _, by rfl, by rfl⟩, ⟨0, _, by rfl, by rfl⟩, ⟨0, _, by rfl, by rfl⟩, trivial⟩
  have held : writtenA.after.file? "a" = some { blank 1 with data := [7] } := by rfl
  obtain ⟨each, -⟩ := shrinks_only_when_asked runs
  refine ⟨held, ?_⟩
  rcases each [openedA 1 1, writtenA] advancedA [] rfl "a" _ held with
    ⟨⟨_, _, _, command, -⟩, -⟩ | ⟨node, found, -, shorter, -⟩
  · cases command
  · exact ⟨node, found, shorter.2 ⟨rfl, .cut rfl (by rfl) (by decide)⟩⟩

end FileBroker.Volume
