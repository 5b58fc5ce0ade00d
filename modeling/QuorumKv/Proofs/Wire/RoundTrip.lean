import QuorumKv.Proofs.Key
import QuorumKv.Proofs.Wire.Reply

/-! What one side wrote, the other side reads, and the reading stops where the writing stopped. So
requests can follow one another on a connection, and whatever a value contains, be it line ends or
the text of a command, does not shift what comes behind it. -/
namespace QuorumKv.Wire

/-- No byte string in memory reaches 2^63 bytes, so its size and a line end can be counted. -/
theorem accepts_of_held {bodyMax size : Nat} (allowed : size ≤ bodyMax)
    (held : size < Text.bound63) : Accepts bodyMax size := by
  simp only [Text.bound63] at held
  refine ⟨allowed, ?_⟩
  simp only [Text.bound64]
  omega

/-- What the proxy writes to a node. -/
inductive Outgoing where
  | get (keys : List String) (withRev : Bool)
  | set (key : String) (item : Item)
  | delete (key : String)

namespace Outgoing

def bytes : Outgoing → Bytes
  | get keys withRev => getRequest keys withRev
  | set key item => setRequest key item
  | delete key => deleteRequest key

/-- The bytes before the data block, if there is one. -/
def commandLine : Outgoing → Bytes
  | get keys withRev => getRequest keys withRev
  | set key item => line (" ".intercalate (setWords key item))
  | delete key => deleteRequest key

def keys : Outgoing → List String
  | get keys _ => keys
  | set key _ | delete key => [key]

def item? : Outgoing → Option Item
  | set _ item => some item
  | get _ _ | delete _ => none

/-- What a node should take it for. It always replies. -/
def request : Outgoing → Request
  | get keys withRev => .get keys withRev
  | set key item => .set key item false
  | delete key => .delete key false

/-- A set is its command line, the value and a line end; everything else is a command line. -/
theorem bytes_eq (o : Outgoing) :
    o.bytes = o.commandLine ++ o.item?.elim [] fun item => item.value ++ Bytes.crlf := by
  cases o with
  | get keys withRev => simp [bytes, commandLine, item?]
  | set key item => exact setRequest_eq key item
  | delete key => simp [bytes, commandLine, item?]

/-- What may be sent to a node with a limit on values. -/
structure Sendable (maxKey bodyMax : Nat) (o : Outgoing) : Prop where
  keyed : o.keys ≠ []
  valid : ∀ key ∈ o.keys, Key.validate maxKey key = .ok ()
  fits : o.commandLine.length ≤ maxLine
  live : ∀ item ∈ o.item?, 0 ≤ item.rev.val
  allowed : ∀ item ∈ o.item?, item.value.length ≤ bodyMax
  /-- No byte string in memory is longer. -/
  held : ∀ item ∈ o.item?, item.value.length < Text.bound63

theorem Sendable.isWord {maxKey bodyMax : Nat} {o : Outgoing} (sendable : o.Sendable maxKey bodyMax)
    {key : String} (listed : key ∈ o.keys) : Text.IsWord key :=
  (Key.isWord_of_validate (sendable.valid key listed)).1

/-- A request is read as it was meant, and the reader is left at the next one. -/
theorem readFrame_bytes {maxKey bodyMax : Nat} {o : Outgoing} (ended : Bool) (rest : Bytes)
    (sendable : o.Sendable maxKey bodyMax) :
    readFrame bodyMax ended (o.bytes ++ rest) = some (.request o.request, rest) := by
  cases o with
  | get keys withRev =>
    exact readFrame_getRequest rest sendable.keyed (fun key listed => sendable.isWord listed)
      sendable.fits
  | set key item =>
    have word : Text.IsWord key := sendable.isWord List.mem_cons_self
    have live : 0 ≤ item.rev.val := sendable.live item rfl
    have allowed : item.value.length ≤ bodyMax := sendable.allowed item rfl
    have accepted := accepts_of_held allowed (sendable.held item rfl)
    have read := @readFrame_setRequest_of_fits bodyMax ended key item rest word sendable.fits
      (Nat.le_trans allowed (Nat.le_mul_of_pos_left bodyMax (by decide))) accepted.2
    have plain : item.rev.isTombstone = false := by
      simpa [Revision.isTombstone] using live
    rw [bytes, read, setFrame, if_neg (Nat.not_lt.mpr allowed), plain]
    rfl
  | delete key =>
    exact readFrame_deleteRequest_of_fits rest (sendable.isWord List.mem_cons_self) sendable.fits

theorem bytes_ne_nil (o : Outgoing) : o.bytes ≠ [] := by
  have filled : o.commandLine ≠ [] := by
    cases o <;> simp [commandLine, getRequest, deleteRequest, line, Bytes.crlf]
  rw [bytes_eq]
  simp [filled]

theorem frames_append {maxKey bodyMax : Nat} {o : Outgoing} (rest : Bytes)
    (sendable : o.Sendable maxKey bodyMax) :
    frames bodyMax (o.bytes ++ rest) = .request o.request :: frames bodyMax rest := by
  apply frames_cons _ (readFrame_bytes true rest sendable)
  · exact Frame.noConfusion
  · exact Frame.noConfusion
  · simp [bytes_ne_nil]

/-- Requests that were sent one behind another are read one behind another. -/
theorem frames_pipelined {maxKey bodyMax : Nat} {sent : List Outgoing}
    (sendable : ∀ o ∈ sent, o.Sendable maxKey bodyMax) :
    frames bodyMax (sent.flatMap bytes) = sent.map (fun o => .request o.request) ++ [.eof] := by
  induction sent with
  | nil => exact frames_nil bodyMax
  | cons o later ih =>
    rw [List.forall_mem_cons] at sendable
    rw [List.flatMap_cons, frames_append _ sendable.1, ih sendable.2]
    rfl

/-- A value that is itself a line end and a command. -/
def commandInValue : Item :=
  ⟨7, Bytes.crlf ++ deleteRequest "k", .clamp 5⟩

theorem sendable_commandInValue :
    ∀ o ∈ [get ["k", "käse"] true, set "käse" commandInValue, delete "k"],
      o.Sendable 250 1024 := by
  have get_sendable : (get ["k", "käse"] true).Sendable 250 1024 :=
    ⟨by decide, by decide, by decide, by simp [item?], by simp [item?], by simp [item?]⟩
  have set_sendable : (set "käse" commandInValue).Sendable 250 1024 :=
    ⟨by decide, by decide, by decide, by decide, by decide, by decide⟩
  have delete_sendable : (delete "k").Sendable 250 1024 :=
    ⟨by decide, by decide, by decide, by simp [item?], by simp [item?], by simp [item?]⟩
  simp only [List.forall_mem_cons]
  exact ⟨get_sendable, set_sendable, delete_sendable, by simp⟩

theorem frames_pipelined_commandInValue :
    frames 1024 ([get ["k", "käse"] true, set "käse" commandInValue, delete "k"].flatMap bytes) =
      [.request (.get ["k", "käse"] true), .request (.set "käse" commandInValue false),
        .request (.delete "k" false), .eof] :=
  frames_pipelined sendable_commandInValue

end Outgoing

/-- Values are read as they were written, whatever they contain, and nothing behind their end is
touched. Without revisions on the wire the reader takes all of them for 0. -/
theorem readValues_written {maxKey bodyMax : Nat} (ended withRev : Bool)
    (found : List (String × Item)) (rest : Bytes)
    (valid : ∀ entry ∈ found, Key.validate maxKey entry.1 = .ok ())
    (fits : ∀ entry ∈ found, (line (valueHeader entry.1 entry.2 withRev)).length ≤ maxLine)
    (allowed : ∀ entry ∈ found, entry.2.value.length ≤ bodyMax)
    (held : ∀ entry ∈ found, entry.2.value.length < Text.bound63) :
    readValues bodyMax ended (values found withRev ++ rest) =
      .done (found.map fun entry => (entry.1, shown withRev entry.2)) rest := by
  apply readValuesAfter_values [] found rest _ fits
  · intro entry listed
    exact accepts_of_held (allowed entry listed) (held entry listed)
  · intro entry listed
    exact (Key.isWord_of_validate (valid entry listed)).1

/-- A tombstone whose value looks like the end of an answer. -/
def endInValue : Item :=
  ⟨0, line "END", ⟨-4, by decide, by decide⟩⟩

theorem readValues_written_endInValue :
    readValues 1024 false (values [("k", endInValue), ("käse", endInValue)] true ++ line "STORED") =
      .done [("k", endInValue), ("käse", endInValue)] (line "STORED") :=
  @readValues_written 250 1024 false true [("k", endInValue), ("käse", endInValue)]
    (line "STORED") (by decide) (by decide) (by decide) (by decide)

end QuorumKv.Wire
