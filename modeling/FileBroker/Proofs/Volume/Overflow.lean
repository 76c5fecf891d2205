import FileBroker.Proofs.Volume.Space

/-!
Requests that a volume has no words for. Space is checked by adding what a file is to grow by to
what all files take up, and nothing checks the sum: a file that is to end far enough out takes it
beyond a word as soon as other files hold anything. The volume then crashes where it is to refuse.
-/
namespace FileBroker

namespace FileNode

theorem size_written (node : FileNode) (now : UInt64) (offset : Nat) (bytes : Bytes) :
    (node.written now offset bytes).size = max (offset + bytes.length) node.size := by
  unfold written size
  dsimp only
  rw [Bytes.length_overwrite]
  · rw [List.length_append, List.length_replicate]
    omega
  · rw [List.length_append, List.length_replicate]
    omega

theorem size_ended (node : FileNode) (now : UInt64) (size : Nat) :
    (node.ended now size).size = size := by
  unfold ended FileNode.size
  dsimp only
  rw [List.length_append, List.length_take, List.length_replicate]
  omega

/-- The space of a file that can be held is counted in whole blocks without leaving a word. -/
theorem allocation_lt {node : FileNode} (short : node.size ≤ longest) :
    (node.size + (blockSize - 1)) / blockSize * blockSize < Word.limit := by
  have bound : longest + blockSize < Word.limit := by decide
  have rounded := Nat.div_mul_le_self (node.size + (blockSize - 1)) blockSize
  omega

end FileNode

namespace Volume

variable {volume after : Volume} {now : UInt64} {request : Request} {response : Response}
  {name : String} {node changed : FileNode}

/-- A write or a change of size that the volume has no room for. -/
def Exceeds (volume : Volume) (request : Request) : Prop :=
  match request.command with
  | .write file offset data _ _ => ∃ bytes name node,
      request.resolve data = .ok bytes ∧ volume.node? file = .ok (name, node) ∧
      (Word.limit ≤ offset.toNat + bytes.length ∨
        volume.size < volume.used + (offset.toNat + bytes.length - node.size))
  | .setInformation file (.endOfFile size _) => ∃ name node,
      volume.node? file = .ok (name, node) ∧
      volume.size < volume.used + (size.toNat - node.size)
  | _ => False

/-- After a change of a file the books can only be exact if there was room for it. -/
theorem room_of_balanced (balanced : volume.Balanced) (held : volume.file? name = some node)
    {total : Nat} (balanced' : Balanced { volume.setFile name changed with used := total }) :
    volume.used + (changed.size - node.size) ≤ volume.size := by
  have count := balanced.used_eq held
  have fits := balanced.fits
  have count' : total = volume.besides name + changed.size :=
    balanced'.used.trans (stored_setFile balanced.names held changed)
  have fits' : total ≤ volume.size := balanced'.fits
  omega

/-- What is granted had room. -/
theorem Fulfils.fits (fulfils : volume.Fulfils now request response after)
    (balanced : volume.Balanced) (balanced' : after.Balanced) : ¬ volume.Exceeds request := by
  unfold Exceeds
  cases fulfils with
  | @changed file name node changed response used held takes total =>
    have room := room_of_balanced balanced (node?_eq_ok.1 held).2 balanced'
    cases takes with
    | @write file' offset data key constrained bytes command resolved within =>
      rw [command]
      rintro ⟨bytes', name', node', resolved', held', far⟩
      cases resolved.symm.trans resolved'
      cases Option.some.inj ((congrArg Command.usedFile command).symm.trans used)
      cases held.symm.trans held'
      rw [FileNode.size_written] at room
      omega
    | @endOfFile file' size advanceOnly command =>
      rw [command]
      rintro ⟨name', node', held', far⟩
      cases Option.some.inj ((congrArg Command.usedFile command).symm.trans used)
      cases held.symm.trans held'
      rw [FileNode.size_ended] at room
      omega
    | disposition command | basic command | allocation command => simp [command]
  | told used held tells =>
    cases tells with
    | read command | queryInformation command | flushBuffers command => simp [command]
  | opened command | kept command | removed command | closed command | described command
    | shutdown command => simp [command]

/-- A volume crashes on a request just when the numbers are used up, or when a file is to end so far
out that it cannot be counted or held. Every other request is answered, and refused if there is no
room for what it asks; and no size that is reported leaves a word. -/
theorem crashes_on_overflow (label : String) (size created : UInt64) {turns : List Turn}
    (runs : (new label size.toNat created).Runs turns) (now : UInt64) (request : Request) :
    let volume := (new label size.toNat created).ends turns
    let reacted := handle now volume request (.ofRequest request)
    (reacted.1 = .crashed ↔ volume.Overflows request) ∧
    (¬ volume.Overflows request → ∃ status information draft,
      reacted.1 = .complete status information draft ∧
      (volume.Exceeds request → status.isSuccess = false ∧ reacted.2 = volume)) ∧
    ∀ entry ∈ reacted.2.files,
      (entry.2.size + (FileNode.blockSize - 1)) / FileNode.blockSize * FileNode.blockSize
        < Word.limit := by
  intro volume reacted
  have balanced : volume.Balanced := (balanced_new label size created).runs runs
  have handled : handle now volume request (.ofRequest request) = reacted := rfl
  obtain ⟨crashes, balanced'⟩ :
      (reacted.1 = .crashed ↔ volume.Overflows request) ∧ reacted.2.Balanced :=
    handle_exact balanced now request
  clear_value reacted
  obtain ⟨reaction, after⟩ := reacted
  refine ⟨crashes, fun served => ?_, fun entry member =>
    FileNode.allocation_lt (balanced'.files entry member)⟩
  rcases handle_course handled with
    ⟨crashed, -⟩ | ⟨status, information, draft, response, completes, -, io, -, course⟩
  · exact absurd (crashes.1 crashed) served
  · refine ⟨status, information, draft, completes, fun exceeds => ?_⟩
    cases course with
    | refused refuses =>
      cases io
      exact ⟨refuses.failed.1, rfl⟩
    | granted fulfils => exact absurd exceeds (fulfils.fits balanced balanced')

/-- A second file is made. -/
def openedB : Turn where
  request := { openingA with trailing := [98] }
  response := openingA.granted 0 (.create ⟨2, 2⟩ 0 (blank 2).info)
  after := { writtenA.after with
    files := [("a", { blank 1 with data := [7] }), ("b", blank 2)]
    handles := [(1, "a"), (2, "b")]
    lastHandle := 2
    lastIndex := 2 }

/-- One byte is to stand at the last place but one that a word can name. -/
def farWrite : Request := ⟨.v1, ⟨1⟩, .write ⟨2, 2⟩ 18446744073709551614 ⟨80, 1⟩ 0 false, [7]⟩

/-- One file holds a byte and the other is written to far out: the sum of both is no word. -/
theorem crashes_on_overflow_farWrite :
    openedB.after.Exceeds farWrite ∧
      (handle 0 openedB.after farWrite (.ofRequest farWrite)).1 = .crashed := by
  have runs : (new "" (16 : UInt64).toNat 0).Runs [openedA 1 1, writtenA, openedB] :=
    ⟨⟨0, _, by rfl, by rfl⟩, ⟨0, _, by rfl, by rfl⟩, ⟨0, _, by rfl, by rfl⟩, trivial⟩
  obtain ⟨crashes, -, -⟩ := crashes_on_overflow "" 16 0 runs 0 farWrite
  have held : openedB.after.node? ⟨2, 2⟩ = .ok ("b", blank 2) := by rfl
  refine ⟨⟨[7], "b", blank 2, by rfl, held, ?_⟩,
    crashes.2 ⟨[7], "b", blank 2, by rfl, held, ?_, ?_⟩⟩
  · decide
  · decide
  · exact .inl (by decide)

end Volume
end FileBroker
