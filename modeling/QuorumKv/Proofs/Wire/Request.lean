import QuorumKv.Proofs.Text.Digits
import QuorumKv.Proofs.Wire.Line
import QuorumKv.Wire.Reply
import QuorumKv.Wire.Stream

/-! What the proxy writes to a node is read there as the one command that was meant, and nothing is
left of it. -/
namespace QuorumKv.Wire

/-- A key that keeps its place in a line, with room for everything else on that line. -/
structure CarriesKey (key : String) : Prop where
  word : Text.IsWord key
  short : key.utf8ByteSize ≤ 8100

/-- A command line is read as the words on it. -/
theorem readFrame_cut {bodyMax : Nat} {ended : Bool} {bytes text rest : Bytes} {command : String}
    {args : List String} (filled : bytes ≠ []) (cut : splitLine maxLine bytes = (text, rest))
    (closed : endsLine text = true)
    (said : Text.splitWords (Text.Utf8.decodeLossy text) = command :: args) :
    readFrame bodyMax ended bytes = readCommand bodyMax ended command args rest := by
  have complete : isOpen text ended = false := by simp [isOpen, closed]
  unfold readFrame
  rw [dif_neg filled]
  simp only [cut, complete, closed, Bool.not_true, Bool.false_eq_true, if_false, said]

theorem readFrame_line {bodyMax : Nat} {ended : Bool} {text command : String} {args : List String}
    (rest : Bytes) (whole : '\n' ∉ text.toList) (fits : (line text).length ≤ maxLine)
    (said : Text.splitWords (text ++ "\r\n") = command :: args) :
    readFrame bodyMax ended (line text ++ rest) = readCommand bodyMax ended command args rest := by
  apply readFrame_cut (line_ne_nil text rest) (splitLine_line rest whole fits) (endsLine_line text)
  rw [decodeLossy_line, said]

theorem splitWords_line {ws : List String} (word : ∀ w ∈ ws, Text.IsWord w) :
    Text.splitWords (" ".intercalate ws ++ "\r\n") = ws :=
  Text.splitWords_intercalate ws "\r\n" word (by simp [Text.isBlank])

theorem readFrame_words {bodyMax : Nat} {ended : Bool} {command : String} {args : List String}
    (rest : Bytes) (word : ∀ w ∈ command :: args, Text.IsWord w)
    (fits : (line (" ".intercalate (command :: args))).length ≤ maxLine) :
    readFrame bodyMax ended (line (" ".intercalate (command :: args)) ++ rest) =
      readCommand bodyMax ended command args rest :=
  readFrame_line rest (lf_notMem_words word) fits (splitWords_line word)

theorem getRequest_eq {keys : List String} (withRev : Bool) (some_key : keys ≠ []) :
    getRequest keys withRev =
      line (" ".intercalate ((if withRev then "gets" else "get") :: keys)) := by
  rw [getRequest, String.intercalate_cons_of_ne_nil some_key]
  cases withRev <;> rfl

theorem isWord_command {command : String}
    (known : command ∈ ["get", "gets", "set", "delete", "VALUE"]) : Text.IsWord command := by
  simp only [List.mem_cons, List.not_mem_nil, or_false] at known
  obtain rfl | rfl | rfl | rfl | rfl := known <;> exact ⟨by decide, by simp [Text.isBlank]⟩

/-- The words on the line of a get. -/
theorem isWord_getWords {keys : List String} (withRev : Bool)
    (word : ∀ key ∈ keys, Text.IsWord key) :
    ∀ w ∈ (if withRev then "gets" else "get") :: keys, Text.IsWord w := by
  rw [List.forall_mem_cons]
  exact ⟨isWord_command (by cases withRev <;> simp), word⟩

theorem readCommand_getWords {bodyMax : Nat} {ended withRev : Bool} {keys : List String}
    (rest : Bytes) (some_key : keys ≠ []) :
    readCommand bodyMax ended (if withRev then "gets" else "get") keys rest =
      some (.request (.get keys withRev), rest) := by
  have filled : keys.isEmpty = false := List.isEmpty_eq_false_iff.mpr some_key
  cases withRev <;> simp [readCommand, getCommand, filled]

theorem readFrame_getRequest {bodyMax : Nat} {ended withRev : Bool} {keys : List String}
    (rest : Bytes) (some_key : keys ≠ []) (word : ∀ key ∈ keys, Text.IsWord key)
    (fits : (getRequest keys withRev).length ≤ maxLine) :
    readFrame bodyMax ended (getRequest keys withRev ++ rest) =
      some (.request (.get keys withRev), rest) := by
  rw [getRequest_eq withRev some_key] at fits ⊢
  rw [readFrame_words rest (isWord_getWords withRev word) fits, readCommand_getWords rest some_key]

/-- A get line without keys is a command line too, and is refused. -/
theorem readFrame_getRequest_nil {bodyMax : Nat} {ended withRev : Bool} (rest : Bytes) :
    readFrame bodyMax ended (getRequest [] withRev ++ rest) =
      some (.rejected (.protocol "get without key"), rest) := by
  have blank : ∀ c ∈ " \r\n".toList, Text.isBlank c = true := by simp [Text.isBlank]
  have said := Text.splitWords_intercalate [if withRev then "gets" else "get"] " \r\n"
    (by cases withRev <;> simp [isWord_command]) blank
  cases withRev
  · have fits : (line "get ").length ≤ maxLine := by
      rw [length_line]
      decide
    exact readFrame_line rest (by decide) fits said
  · have fits : (line "gets ").length ≤ maxLine := by
      rw [length_line]
      decide
    exact readFrame_line rest (by decide) fits said

theorem deleteRequest_eq (key : String) :
    deleteRequest key = line (" ".intercalate ["delete", key]) := by
  rw [deleteRequest, String.intercalate_cons_of_ne_nil (by simp), String.intercalate_singleton]
  rfl

theorem readFrame_deleteRequest_of_fits {bodyMax : Nat} {ended : Bool} {key : String} (rest : Bytes)
    (word : Text.IsWord key) (fits : (deleteRequest key).length ≤ maxLine) :
    readFrame bodyMax ended (deleteRequest key ++ rest) =
      some (.request (.delete key false), rest) := by
  rw [deleteRequest_eq] at fits ⊢
  rw [readFrame_words rest ?_ fits]
  · simp [readCommand, deleteCommand]
  · simp [isWord_command, word]

theorem length_deleteRequest_le {key : String} (carried : CarriesKey key) :
    (deleteRequest key).length ≤ maxLine := by
  have short := carried.short
  have name : "delete".utf8ByteSize = 6 := rfl
  rw [deleteRequest_eq, length_line, utf8ByteSize_words_cons _ _ (by simp),
    String.intercalate_singleton, name, maxLine]
  omega

theorem readFrame_deleteRequest {bodyMax : Nat} {ended : Bool} {key : String} (rest : Bytes)
    (carried : CarriesKey key) :
    readFrame bodyMax ended (deleteRequest key ++ rest) =
      some (.request (.delete key false), rest) :=
  readFrame_deleteRequest_of_fits rest carried.word (length_deleteRequest_le carried)

/-- The words on the line of a set. -/
def setWords (key : String) (item : Item) : List String :=
  ["set", key, toString item.flags.toNat, toString item.rev.val, toString item.value.length]

theorem setRequest_eq (key : String) (item : Item) :
    setRequest key item =
      line (" ".intercalate (setWords key item)) ++ (item.value ++ Bytes.crlf) := by
  have header : s!"set {key} {item.flags.toNat} {item.rev.val} {item.value.length}" =
      " ".intercalate (setWords key item) := by
    have same (text : String) : toString text = text := rfl
    simp only [setWords, String.intercalate_cons_cons, String.intercalate_singleton]
    simp [← String.toList_inj, same]
  rw [setRequest, header, List.append_assoc]

theorem setLine?_words (key : String) (item : Item) (size : Nat) (small : size < Text.bound64) :
    setLine? [key, toString item.flags.toNat, toString item.rev.val, toString size] =
      some ⟨key, item.flags, item.rev, size, false⟩ := by
  simp only [setLine?, Text.uint32?_toString, Text.uint64?_toString, small, if_true]
  have rev := Text.revision_toString item.rev
  simp only [Option.bind_eq_bind, Option.bind_some, rev]
  rfl

/-- The verdict on a data block of the announced length, which is thrown away if it is over the
limit. -/
def SetLine.verdict (s : SetLine) (bodyMax : Nat) (block : Bytes) : Frame :=
  if bodyMax < s.size then .rejected (.tooLarge s.size bodyMax) else s.accept block

/-- A block that is not refused unread is taken off the stream as a whole, whatever is in it. -/
theorem SetLine.readBlock_whole {s : SetLine} {bodyMax : Nat} {ended : Bool} {block : Bytes}
    (rest : Bytes) (read : s.size ≤ 4 * bodyMax) (small : s.size + 2 < Text.bound64)
    (whole : block.length = s.size + 2) :
    s.readBlock bodyMax ended (block ++ rest) = some (s.verdict bodyMax block, rest) := by
  have taken : (block ++ rest).take (s.size + 2) = block := by rw [← whole, List.take_left]
  have left : (block ++ rest).drop (s.size + 2) = rest := by rw [← whole, List.drop_left]
  have counted : blockLength s.size = s.size + 2 := Nat.mod_eq_of_lt small
  unfold readBlock verdict
  simp only [Nat.not_lt.mpr read, if_false]
  by_cases large : bodyMax < s.size
  · rw [if_pos large, if_pos large, taken, left]
    simp [whole]
  · rw [if_neg large, if_neg large]
    simp only [counted, taken, left, whole, if_true]

/-- What a node reads of a set whose data block is complete. -/
def setFrame (bodyMax : Nat) (key : String) (item : Item) : Frame :=
  if bodyMax < item.value.length then .rejected (.tooLarge item.value.length bodyMax)
  else if item.rev.isTombstone then .rejected (.protocol s!"negative revision {item.rev.val}")
  else .request (.set key item false)

theorem readBlock_set {bodyMax : Nat} {ended : Bool} {key : String} {item : Item} (rest : Bytes)
    (read : item.value.length ≤ 4 * bodyMax) (small : item.value.length + 2 < Text.bound64) :
    SetLine.readBlock ⟨key, item.flags, item.rev, item.value.length, false⟩ bodyMax ended
      (item.value ++ Bytes.crlf ++ rest) = some (setFrame bodyMax key item, rest) := by
  have whole : (item.value ++ Bytes.crlf).length = item.value.length + 2 := by
    rw [List.length_append]
    rfl
  rw [SetLine.readBlock_whole rest read small whole]
  simp only [SetLine.verdict, setFrame, SetLine.accept, List.drop_left, List.take_left, ne_eq,
    not_true, if_false]

/-- The line of a set announces the data block behind it. -/
theorem readFrame_setRequest_line {bodyMax : Nat} {ended : Bool} {key : String} {item : Item}
    (rest : Bytes) (word : Text.IsWord key)
    (fits : (line (" ".intercalate (setWords key item))).length ≤ maxLine)
    (small : item.value.length < Text.bound64) :
    readFrame bodyMax ended (setRequest key item ++ rest) =
      SetLine.readBlock ⟨key, item.flags, item.rev, item.value.length, false⟩ bodyMax ended
        (item.value ++ Bytes.crlf ++ rest) := by
  have words : ∀ w ∈ setWords key item, Text.IsWord w := by
    simp only [setWords, List.forall_mem_cons]
    exact ⟨isWord_command (by simp), word, Text.isWord_toString_nat _,
      Text.isWord_toString_int _, Text.isWord_toString_nat _, by simp⟩
  rw [setRequest_eq, List.append_assoc, setWords, readFrame_words _ words fits, readCommand,
    if_pos rfl, setLine?_words key item _ small]

theorem readFrame_setRequest_of_fits {bodyMax : Nat} {ended : Bool} {key : String} {item : Item}
    (rest : Bytes) (word : Text.IsWord key)
    (fits : (line (" ".intercalate (setWords key item))).length ≤ maxLine)
    (read : item.value.length ≤ 4 * bodyMax) (small : item.value.length + 2 < Text.bound64) :
    readFrame bodyMax ended (setRequest key item ++ rest) =
      some (setFrame bodyMax key item, rest) := by
  rw [readFrame_setRequest_line rest word fits (by omega)]
  exact readBlock_set rest read small

/-- A size beyond what is read at all is refused on the spot. -/
theorem readFrame_setRequest_unread {bodyMax : Nat} {ended : Bool} {key : String} {item : Item}
    (rest : Bytes) (word : Text.IsWord key)
    (fits : (line (" ".intercalate (setWords key item))).length ≤ maxLine)
    (unread : 4 * bodyMax < item.value.length) (small : item.value.length < Text.bound64) :
    readFrame bodyMax ended (setRequest key item ++ rest) =
      some (.rejected (.protocol s!"declared size {item.value.length} is not acceptable"),
        item.value ++ Bytes.crlf ++ rest) := by
  rw [readFrame_setRequest_line rest word fits small]
  exact if_pos unread

theorem length_setLine_le {key : String} {item : Item} (carried : CarriesKey key)
    (small : item.value.length < Text.bound64) :
    (line (" ".intercalate (setWords key item))).length ≤ maxLine := by
  have short := carried.short
  have name : "set".utf8ByteSize = 3 := rfl
  have flags : (toString item.flags.toNat).utf8ByteSize ≤ 10 :=
    Text.utf8ByteSize_toString_le (by decide)
      (Nat.lt_trans item.flags.toNat_lt (by decide))
  have rev := Text.utf8ByteSize_revision_le item.rev
  have size : (toString item.value.length).utf8ByteSize ≤ 20 :=
    Text.utf8ByteSize_toString_le (by decide)
      (Nat.lt_trans (show item.value.length < Text.bound64 by omega) (by decide))
  simp only [setWords]
  rw [length_line, utf8ByteSize_words_cons _ _ (by simp), utf8ByteSize_words_cons _ _ (by simp),
    utf8ByteSize_words_cons _ _ (by simp), utf8ByteSize_words_cons _ _ (by simp),
    String.intercalate_singleton, name, maxLine]
  omega

theorem readFrame_setRequest {bodyMax : Nat} {ended : Bool} {key : String} {item : Item}
    (rest : Bytes) (carried : CarriesKey key) (read : item.value.length ≤ 4 * bodyMax)
    (small : item.value.length + 2 < Text.bound64) :
    readFrame bodyMax ended (setRequest key item ++ rest) =
      some (setFrame bodyMax key item, rest) :=
  readFrame_setRequest_of_fits rest carried.word
    (length_setLine_le carried (Nat.lt_of_succ_lt (Nat.lt_of_succ_lt small))) read small

theorem frames_nil (bodyMax : Nat) : frames bodyMax [] = [.eof] := by
  rw [frames, dif_pos rfl]

/-- A frame that does not end the stream, and the frames of what it left. -/
theorem frames_cons {bodyMax : Nat} {bytes rest : Bytes} {frame : Frame} (filled : bytes ≠ [])
    (read : readFrame bodyMax true bytes = some (frame, rest)) (more : frame ≠ .eof)
    (complete : frame ≠ .cut) : frames bodyMax bytes = frame :: frames bodyMax rest := by
  rw [frames, dif_neg filled]
  split <;> simp_all

/-- A stream that is one frame. -/
theorem frames_of_one {bodyMax : Nat} {bytes : Bytes} {frame : Frame} (filled : bytes ≠ [])
    (read : readFrame bodyMax true bytes = some (frame, [])) (more : frame ≠ .eof)
    (complete : frame ≠ .cut) : frames bodyMax bytes = [frame, .eof] := by
  rw [frames_cons filled read more complete, frames_nil]

end QuorumKv.Wire
