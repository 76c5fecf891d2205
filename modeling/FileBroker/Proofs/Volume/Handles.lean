import FileBroker.Proofs.Volume.History

/-!
What a handle stands for. It is kept with the name that it was opened under, and reaches whatever
file has this name. That is the file it was opened on as long as this file is there: no other file
gets the name or the index before it is gone. After that the handle reaches the file that was made
under the name since, if there is one.
-/
namespace FileBroker.Volume

variable {volume after : Volume} {now : UInt64} {request : Request} {response : Response}
  {name : String} {file : FileKey}

/-! ### Indices -/

/-- The file with an index, if there is one, has one of these names; and the index was given out. -/
structure Confined (index : UInt64) (names : String → Prop) (volume : Volume) : Prop where
  given : index.toNat ≤ volume.lastIndex
  under : ∀ other node, volume.file? other = some node → UInt64.ofNat node.index = index →
    names other

/-- No other file has the index of a file that is there. -/
theorem Numbered.confined (numbered : volume.Numbered) {node : FileNode}
    (held : volume.file? name = some node) :
    volume.Confined (UInt64.ofNat node.index) (· = name) := by
  have word {given : Nat} (below : given ≤ volume.lastIndex) :
      (UInt64.ofNat given).toNat = given :=
    UInt64.toNat_ofNat_of_lt' (Nat.lt_of_le_of_lt below numbered.last)
  have below := numbered.index_le held
  refine ⟨?_, fun other node' found same => ?_⟩
  · rw [word below]
    exact below
  · have index : node'.index = node.index := by
      rw [← word (numbered.index_le found), same, word below]
    exact numbered.own _ (mem_files_of_file? found) _ (mem_files_of_file? held) index

namespace Confined

variable {index : UInt64} {names : String → Prop}

/-- A file may be put in place of one with the same index, or under an index of its own. -/
theorem put (confined : volume.Confined index names) {changed : FileNode}
    (files : after.file? = Function.update volume.file? name (some changed))
    (origin : (∃ old, volume.file? name = some old ∧ changed.index = old.index) ∨
      UInt64.ofNat changed.index ≠ index)
    (lastIndex : volume.lastIndex ≤ after.lastIndex) : after.Confined index names where
  given := Nat.le_trans confined.given lastIndex
  under other node found same := by
    rw [files, Function.update_apply] at found
    split at found
    · next is =>
      cases found
      rcases origin with ⟨old, held, index⟩ | apart
      · exact confined.under other old (is ▸ held) (by rw [← index, same])
      · exact absurd same apart
    · exact confined.under other node found same

theorem reach (confined : volume.Confined index names) {disposition : Disposition}
    {node : FileNode} {reached : Volume}
    (found : volume.reach now name disposition = some (node, reached)) :
    reached.Confined index names := by
  refine confined.put (file?_reached found) ?_ (handles_reached found).2.2
  rcases reach_cases found with
    ⟨-, fresh, rfl, -⟩ | ⟨old, held, ⟨-, rfl, -⟩ | ⟨-, rfl, -⟩⟩
  · refine .inr fun same => ?_
    have given := confined.given
    have next : (UInt64.ofNat (volume.lastIndex + 1)).toNat = volume.lastIndex + 1 :=
      UInt64.toNat_ofNat_of_lt' fresh
    rw [← same, next] at given
    omega
  · exact .inl ⟨old, held, rfl⟩
  · exact .inl ⟨node, held, rfl⟩

/-- No file gets an index that was given out before. -/
theorem sends (confined : volume.Confined index names)
    (sends : volume.Sends now request response after) : after.Confined index names := by
  cases course_of_sends sends with
  | refused => exact confined
  | granted fulfils =>
    cases fulfils with
    | opened command named known allowed found fresh =>
      have reached := confined.reach found
      exact ⟨reached.given, reached.under⟩
    | told => exact confined
    | changed used held takes total =>
      have held := (node?_eq_ok.1 held).2
      exact confined.put (file?_changed held _ total) (.inl ⟨_, held, index_of_takes takes⟩)
        (Nat.le_refl _)
    | kept => exact confined
    | @removed file fileName delete name node command held goes total =>
      refine ⟨confined.given, fun other node found same => ?_⟩
      rw [file?_removed, Function.update_apply] at found
      split at found
      · cases found
      · exact confined.under other node found same
    | closed => exact ⟨confined.given, confined.under⟩
    | described => exact confined
    | shutdown => exact confined

theorem runs (confined : volume.Confined index names) {turns : List Turn}
    (runs : volume.Runs turns) : (volume.ends turns).Confined index names :=
  runs_induction runs confined fun _ _ _ _ kept sends => kept.sends sends

end Confined

/-! ### Names -/

/-- A request closes a handle. -/
def Closes (request : Request) (handle : UInt64) : Prop :=
  ∃ file, request.command = .close file ∧ file.handle = handle

/-- A handle stands for the same name until it is closed. -/
theorem nameOf?_sends (sends : volume.Sends now request response after)
    (stays : ¬ Closes request file.handle) (named : volume.nameOf? file = some name) :
    after.nameOf? file = some name := by
  cases course_of_sends sends with
  | refused => exact named
  | granted fulfils =>
    cases fulfils with
    | opened command _ known allowed found fresh =>
      unfold nameOf? at named ⊢
      rw [List.lookup_append, (handles_reached found).1, named]
      rfl
    | @closed closing command =>
      change List.lookup _ (List.filter _ _) = _
      rw [lookup_filter_ne, if_neg]
      · exact named
      · intro same
        exact stays ⟨closing, command, (UInt64.toNat_inj.1 same).symm⟩
    | _ => exact named

theorem nameOf?_runs {turns : List Turn} (runs : volume.Runs turns)
    (stays : ∀ turn ∈ turns, ¬ Closes turn.request file.handle)
    (named : volume.nameOf? file = some name) : (volume.ends turns).nameOf? file = some name :=
  runs_induction runs named fun turn member _ _ kept sends =>
    nameOf?_sends sends (stays turn member) kept

/-! ### What a handle reaches -/

/-- A request is told of the file that has a name, or makes something of this file alone. -/
def Uses (volume : Volume) (now : UInt64) (name : String) (request : Request) (response : Response)
    (after : Volume) : Prop :=
  ∃ node, volume.file? name = some node ∧
    (node.Tells request response ∧ after = volume ∨
      ∃ changed, node.Takes now request response changed ∧ changed.index = node.index ∧
        after.file? = Function.update volume.file? name (some changed) ∧
        after.handles = volume.handles)

/-- A handle works on the file that has a name. What is granted on it uses this file, and a cleanup
removes no other. -/
structure Reaches (volume : Volume) (handle : UInt64) (name : String) : Prop where
  granted : ∀ {now : UInt64} {request : Request} {response : Response} {after : Volume}
    {file : FileKey}, volume.Sends now request response after →
    response.status.isSuccess = true → request.command.usedFile = some file →
    file.handle = handle → volume.Uses now name request response after
  removes : ∀ {now : UInt64} {request : Request} {response : Response} {after : Volume}
    {file : FileKey} {fileName : Region} {delete : Bool},
    volume.Sends now request response after → request.command = .cleanup file fileName delete →
    file.handle = handle → ∀ other, other ≠ name → after.file? other = volume.file? other

theorem granted_reaches (sends : volume.Sends now request response after)
    (success : response.status.isSuccess = true) (used : request.command.usedFile = some file)
    (named : volume.nameOf? file = some name) : volume.Uses now name request response after := by
  cases (course_of_sends sends).fulfils success with
  | told used' held tells =>
    cases used.symm.trans used'
    obtain ⟨named', found⟩ := node?_eq_ok.1 held
    cases named.symm.trans named'
    exact ⟨_, found, .inl ⟨tells, rfl⟩⟩
  | changed used' held takes total =>
    cases used.symm.trans used'
    obtain ⟨named', found⟩ := node?_eq_ok.1 held
    cases named.symm.trans named'
    exact ⟨_, found, .inr ⟨_, takes, index_of_takes takes, file?_changed found _ total, rfl⟩⟩
  | opened command | kept command | removed command | closed command | described command
    | shutdown command =>
    rw [command] at used
    cases used

theorem cleanup_reaches (sends : volume.Sends now request response after)
    {fileName : Region} {delete : Bool} (command : request.command = .cleanup file fileName delete)
    (named : volume.nameOf? file = some name) {other : String} (apart : other ≠ name) :
    after.file? other = volume.file? other := by
  cases course_of_sends sends with
  | refused => rfl
  | granted fulfils =>
    cases fulfils with
    | removed command' held goes total =>
      cases command.symm.trans command'
      cases named.symm.trans (node?_eq_ok.1 held).1
      rw [file?_removed, Function.update_of_ne apart]
    | changed used =>
      rw [command] at used
      cases used
    | opened command' | closed command' => cases command.symm.trans command'
    | told | kept | described | shutdown => rfl

/-- A handle works on the file that has its name. -/
theorem reaches_of_named (named : volume.nameOf? file = some name) :
    volume.Reaches file.handle name := by
  have likewise : ∀ key : FileKey, key.handle = file.handle → volume.nameOf? key = some name := by
    intro key same
    rw [nameOf?, same]
    exact named
  constructor
  · intro _ _ _ _ key sends success used same
    exact granted_reaches sends success used (likewise key same)
  · intro _ _ _ _ key _ _ sends command same _ apart
    exact cleanup_reaches sends command (likewise key same) apart

/-! ### Opening -/

/-- A file with this index stands under this name. -/
def Holds (volume : Volume) (name : String) (index : UInt64) : Prop :=
  ∃ node, volume.file? name = some node ∧ UInt64.ofNat node.index = index

/-- A key is returned for the name that was asked for: the handle gets this name, and no other file
has the index. -/
theorem opens_named (numbered : volume.Numbered)
    (sends : volume.Sends now request response after) {access : UInt32} {info : FileInfo}
    (answer : response.answer = .create file access info)
    (success : response.status.isSuccess = true) :
    ∃ options name, request.command = .create options ∧
      request.resolveText options.fileName = .ok name ∧ after.nameOf? file = some name ∧
      after.Confined file.index (· = name) ∧ after.Holds name file.index := by
  have numbered' := numbered.sends sends
  cases (course_of_sends sends).fulfils success with
  | @opened options name disposition node reached command named known allowed found fresh =>
    cases answer
    have held : reached.file? name = some node := by
      rw [file?_reached found, Function.update_self]
    refine ⟨options, name, command, named, ?_, numbered'.confined held, node, held, rfl⟩
    change List.lookup (UInt64.ofNat _).toNat (_ ++ _) = _
    rw [lookup_handles_opened numbered.toLawful found, UInt64.toNat_ofNat_of_lt' fresh, if_pos rfl]
  | told _ _ tells => cases tells <;> cases answer
  | changed _ _ takes => cases takes <;> cases answer
  | kept | removed | closed | described | shutdown => cases answer

/-- Until it is closed, a handle works on the file that has the name it was opened under. This is
the file it was opened on for as long as this file is there: no other has the index that was
returned with the handle. Once the file is gone its index never comes back, and the handle works on
whatever file is made under the name. -/
theorem handle_reaches_named (label : String) (size created : UInt64) (earlier : List Turn)
    (opening : Turn) (later : List Turn) {key : FileKey} {access : UInt32} {info : FileInfo}
    (runs : (new label size.toNat created).Runs (earlier ++ opening :: later))
    (answer : opening.response.answer = .create key access info)
    (success : opening.response.status.isSuccess = true)
    (stays : ∀ turn ∈ later, ¬ Closes turn.request key.handle) :
    ∃ options name, opening.request.command = .create options ∧
      opening.request.resolveText options.fileName = .ok name ∧
      opening.after.Holds name key.index ∧
      (opening.after.ends later).Reaches key.handle name ∧
      (∀ other, (opening.after.ends later).Holds other key.index → other = name) ∧
      (∀ further, (opening.after.ends later).Runs further →
        (∃ other, ((opening.after.ends later).ends further).Holds other key.index) →
        (opening.after.ends later).Holds name key.index) := by
  obtain ⟨before, ⟨now, sends⟩, onward⟩ := runs_append.1 runs
  have numbered := (numbered_new label size created).runs before
  obtain ⟨options, name, command, resolved, named, confined, holds⟩ :=
    opens_named numbered sends answer success
  have named' := nameOf?_runs onward stays named
  have confined' := confined.runs onward
  refine ⟨options, name, command, resolved, holds, reaches_of_named named', ?_, ?_⟩
  · rintro other ⟨node, found, same⟩
    exact confined'.under other node found same
  · rintro further onward' ⟨other, node, found, same⟩
    -- Had the file been gone, no file would have its index from there on.
    by_contra gone
    have nowhere : (opening.after.ends later).Confined key.index fun _ => False := by
      refine ⟨confined'.given, fun other node found same => gone ?_⟩
      obtain rfl := confined'.under other node found same
      exact ⟨node, found, same⟩
    exact (nowhere.runs onward').under other node found same

/-- The file goes with the cleanup of a handle. -/
def cleanedUp (handle : UInt64) (handles lastIndex : Nat) : Turn where
  request := ⟨.v1, ⟨1⟩, .cleanup ⟨handle, 1⟩ .empty true, []⟩
  response := ⟨.v1, ⟨1⟩, ⟨.success, 0⟩, .cleanup, []⟩
  after := holding none handles lastIndex

/-- A file is opened twice, removed through the second handle, and made anew. The first handle,
which was returned with the index 1, works on the file with the index 2 from there on, and removes
it. -/
theorem handle_reaches_named_remade :
    let remade := (openedA 3 2).after
    remade.Reaches 1 "a" ∧ remade.Holds "a" 2 ∧ ¬ remade.Holds "a" 1 ∧
      remade.Sends 0 (cleanedUp 1 3 2).request (cleanedUp 1 3 2).response (holding none 3 2) := by
  obtain ⟨options, name, command, named, -, reaches, -, -⟩ :=
    handle_reaches_named "" 16 0 [] (openedA 1 1) [openedA 2 1, cleanedUp 2 2 1, openedA 3 2]
      ⟨⟨0, _, by rfl, by rfl⟩, ⟨0, _, by rfl, by rfl⟩, ⟨0, _, by rfl, by rfl⟩,
        ⟨0, _, by rfl, by rfl⟩, trivial⟩
      rfl rfl (by simp [Closes, openedA, cleanedUp, openingA])
  cases command
  cases named.symm.trans (by rfl : _ = Except.ok "a")
  refine ⟨reaches, ⟨blank 2, by rfl, rfl⟩, ?_, ⟨_, by rfl, by rfl⟩⟩
  rintro ⟨node, found, index⟩
  obtain rfl : blank 2 = node := Option.some.inj (.trans (by rfl) found)
  cases index

end FileBroker.Volume
