import QuorumKv.Proofs.Key
import QuorumKv.Proofs.Wire.Request

/-! Where one read of a stream ends. The line of a set takes its data block with it, whatever is in
the block and whatever is made of it, so no byte of a value is read as a command. Every read that
does not end the stream takes a byte off it, so reading comes to its end. -/
namespace QuorumKv.Wire

/-- A line without its line feed that announces a data block which is not refused unread. -/
structure Announces (bodyMax : Nat) (text : Bytes) (s : SetLine) : Prop where
  whole : Bytes.lf ∉ text
  /-- The line feed is one of the bytes of a line. -/
  fits : text.length < maxLine
  said : ∃ args, Text.splitWords (Text.Utf8.decodeLossy (text ++ [Bytes.lf])) = "set" :: args ∧
    setLine? args = some s
  read : s.size ≤ 4 * bodyMax

/-- A line and its data block are one frame, and the next one begins behind them. -/
theorem readFrame_announced {bodyMax : Nat} (ended : Bool) {text block : Bytes} {s : SetLine}
    (rest : Bytes) (announced : Announces bodyMax text s) (small : s.size + 2 < Text.bound64)
    (whole : block.length = s.size + 2) :
    readFrame bodyMax ended (text ++ Bytes.lf :: (block ++ rest)) =
      some (s.verdict bodyMax block, rest) := by
  obtain ⟨args, said, parsed⟩ := announced.said
  have closed : endsLine (text ++ [Bytes.lf]) = true := by simp [endsLine]
  have filled : text ++ Bytes.lf :: (block ++ rest) ≠ [] := by simp
  rw [readFrame_cut filled (splitLine_lf announced.whole announced.fits) closed said, readCommand,
    if_pos rfl, parsed]
  exact SetLine.readBlock_whole rest announced.read small whole

/-- Whether there is nothing to read behind a frame. -/
def Frame.isEnd : Frame → Bool
  | eof | cut => true
  | request _ | rejected _ | unknown => false

theorem SetLine.verdict_goes_on (s : SetLine) (bodyMax : Nat) (block : Bytes) :
    (s.verdict bodyMax block).isEnd = false := by
  unfold verdict accept
  split
  · rfl
  · split
    · rfl
    · split <;> rfl

/-- A read that does not end the stream takes at least one byte off its front. -/
theorem readFrame_takes {bodyMax : Nat} {ended : Bool} {bytes rest : Bytes} {frame : Frame}
    (read : readFrame bodyMax ended bytes = some (frame, rest)) (goes_on : frame.isEnd = false) :
    ∃ taken, taken ≠ [] ∧ bytes = taken ++ rest := by
  obtain ⟨taken, parts⟩ := readFrame_suffix read
  have filled : bytes ≠ [] := by
    rintro rfl
    rw [readFrame, dif_pos rfl] at read
    split at read
    · obtain ⟨rfl, -⟩ := Prod.mk.inj (Option.some.inj read)
      cases goes_on
    · cases read
  have shorter := length_readFrame_lt filled read
  refine ⟨taken, ?_, parts.symm⟩
  rintro rfl
  rw [← parts] at shorter
  exact Nat.lt_irrefl _ shorter

/-- Once no more bytes can arrive, a data block is never waited for. -/
theorem readBlock_ended (s : SetLine) (bodyMax : Nat) (bytes : Bytes) :
    (s.readBlock bodyMax true bytes).isSome = true := by
  unfold SetLine.readBlock
  simp only [Bool.or_true, if_true]
  repeat' split
  all_goals rfl

theorem readCommand_ended (bodyMax : Nat) (command : String) (args : List String)
    (bytes : Bytes) : (readCommand bodyMax true command args bytes).isSome = true := by
  unfold readCommand
  split
  · split
    · exact readBlock_ended ..
    · rfl
  · repeat' split
    all_goals rfl

theorem readFrame_ended {ended : Bool} (last : ended = true) (bodyMax : Nat) (bytes : Bytes) :
    (readFrame bodyMax ended bytes).isSome = true := by
  fun_induction readFrame bodyMax ended bytes with
  | case1 => rfl
  | case2 => exact absurd last ‹_›
  | case3 bytes filled text waiting =>
    rw [last] at waiting
    cases waiting
  | case4 => rfl
  | case5 => exact ‹_›
  | case6 =>
    subst last
    exact readCommand_ended ..

/-- Reading on and on comes to an end of the stream, after at most one read for each of its
bytes. -/
theorem frames_end (bodyMax : Nat) (bytes : Bytes) :
    ∃ read last, frames bodyMax bytes = read ++ [last] ∧ last.isEnd = true ∧
      (∀ frame ∈ read, frame.isEnd = false) ∧ read.length ≤ bytes.length := by
  fun_induction frames bodyMax bytes with
  | case1 => exact ⟨[], .eof, rfl, rfl, by simp, Nat.le_refl _⟩
  | case2 bytes filled stuck =>
    have complete := readFrame_ended rfl bodyMax bytes
    rw [stuck] at complete
    cases complete
  | case3 => exact ⟨[], .eof, rfl, rfl, by simp, Nat.zero_le _⟩
  | case4 => exact ⟨[], .cut, rfl, rfl, by simp, Nat.zero_le _⟩
  | case5 bytes filled frame rest more complete read ih =>
    obtain ⟨later, last, parts, ends, others, short⟩ := ih
    have goes_on : frame.isEnd = false := by
      cases frame with
      | eof => exact absurd rfl more
      | cut => exact absurd rfl complete
      | _ => rfl
    have shorter := length_readFrame_lt filled read
    refine ⟨frame :: later, last, by rw [parts]; rfl, ends, ?_, ?_⟩
    · exact List.forall_mem_cons.mpr ⟨goes_on, others⟩
    · rw [List.length_cons]
      omega

/-- The reader and what was sent stay in step. A set line whose size is read takes off the stream
itself and its data block, no more and no less, whatever the verdict. Every read that does not end
the stream takes something off its front, and reading on and on ends. -/
theorem reads_in_step {bodyMax : Nat} (small : 4 * bodyMax + 2 < Text.bound63) :
    (∀ text s, Announces bodyMax text s → ∀ block rest, block.length = s.size + 2 →
      (∀ ended, readFrame bodyMax ended (text ++ Bytes.lf :: (block ++ rest)) =
        some (s.verdict bodyMax block, rest)) ∧
      frames bodyMax (text ++ Bytes.lf :: (block ++ rest)) =
        s.verdict bodyMax block :: frames bodyMax rest) ∧
    (∀ ended bytes frame rest, readFrame bodyMax ended bytes = some (frame, rest) →
      frame.isEnd = false → ∃ taken, taken ≠ [] ∧ bytes = taken ++ rest) ∧
    ∀ bytes, ∃ read last, frames bodyMax bytes = read ++ [last] ∧ last.isEnd = true ∧
      (∀ frame ∈ read, frame.isEnd = false) ∧ read.length ≤ bytes.length := by
  refine ⟨?_, fun _ _ _ _ => readFrame_takes, frames_end bodyMax⟩
  intro text s announced block rest whole
  have counted : s.size + 2 < Text.bound64 := by
    have size := announced.read
    simp only [Text.bound63] at small
    simp only [Text.bound64]
    omega
  have read (ended : Bool) := readFrame_announced ended rest announced counted whole
  have goes_on := s.verdict_goes_on bodyMax block
  refine ⟨read, frames_cons (by simp) (read true) ?_ ?_⟩
  · intro ends
    rw [ends] at goes_on
    cases goes_on
  · intro ends
    rw [ends] at goes_on
    cases goes_on

/-- The announcement of a tombstone's revision. -/
def refusedLine : String := "set k 0 -5 10"

theorem announces_refused :
    Announces 1024 (Text.Utf8.encode refusedLine ++ [Bytes.cr])
      ⟨"k", 0, .clamp (-5), 10, false⟩ := by
  refine ⟨by decide, by decide, ⟨["k", "0", "-5", "10"], ?_, rfl⟩, by decide⟩
  have words : ∀ w ∈ ["set", "k", "0", "-5", "10"], Text.IsWord w := by
    intro w listed
    refine (@Key.isWord_of_validate 250 w ?_).1
    revert w
    decide
  rw [List.append_assoc]
  exact (congrArg Text.splitWords (decodeLossy_line refusedLine)).trans (splitWords_line words)

/-- A refused value that is itself a command: the next command is the one behind it. -/
theorem reads_in_step_refused :
    let text := Text.Utf8.encode refusedLine ++ [Bytes.cr]
    let block := Bytes.crlf ++ deleteRequest "k"
    4 * 1024 + 2 < Text.bound63 ∧ block.length = 10 + 2 ∧
      readFrame 1024 false (text ++ Bytes.lf :: (block ++ line "version")) =
        some (.rejected (.protocol "negative revision -5"), line "version") := by
  intro text block
  obtain ⟨in_step, -, -⟩ := @reads_in_step 1024 (by decide)
  refine ⟨by decide, by decide, ?_⟩
  exact (in_step text _ announces_refused block (line "version") (by decide)).1 false

end QuorumKv.Wire
