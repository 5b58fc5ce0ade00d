import QuorumKv.Node.Call
import QuorumKv.Node.Session
import QuorumKv.Proofs.Key
import QuorumKv.Proofs.Wire.Reply

/-! One question to a node and the way back. The node takes the question for one frame and sends one
reply, so that an answer which was read to its end leaves nothing on the connection, and what it
says is what the store holds. -/
namespace QuorumKv

namespace Meta

def words (m : Meta) : List String :=
  [toString m.rev.val, toString m.hash.toNat, toString m.flags.toNat, toString m.size,
    toString m.timestamp, toString m.chunk.toNat, toString m.offset]

theorem line_eq (m : Meta) : m.line = " ".intercalate m.words := by
  have same (text : String) : toString text = text := rfl
  simp only [line, words, String.intercalate_cons_cons, String.intercalate_singleton]
  simp [← String.toList_inj, same]

theorem splitWords_line (m : Meta) : Text.splitWords m.line = m.words := by
  have read := Text.splitWords_intercalate m.words "" (by
    simp only [words, List.forall_mem_cons]
    exact ⟨Text.isWord_toString_int _, Text.isWord_toString_nat _, Text.isWord_toString_nat _,
      Text.isWord_toString_nat _, Text.isWord_toString_nat _, Text.isWord_toString_nat _,
      Text.isWord_toString_nat _, by simp⟩) (by simp)
  rwa [String.append_empty, ← line_eq] at read

/-- Whether the numbers are within their 64 bits. -/
def IsBounded (m : Meta) : Prop :=
  m.size < Text.bound64 ∧ m.timestamp < Text.bound64 ∧ m.offset < Text.bound64

theorem ofFields?_words (m : Meta) (bounded : m.IsBounded) : ofFields? m.words = some m := by
  obtain ⟨size, timestamp, offset⟩ := bounded
  have rev := Text.revision_toString m.rev
  simp only [words, ofFields?, Option.bind_eq_bind, rev, Text.uint32?_toString,
    Text.uint64?_toString, size, timestamp, offset, if_true, Option.bind_some]
  rfl

theorem ofFields?_words_large (m : Meta) (large : ¬m.IsBounded) : ofFields? m.words = none := by
  have rev := Text.revision_toString m.rev
  simp only [words, ofFields?, Option.bind_eq_bind, rev, Text.uint32?_toString,
    Text.uint64?_toString, Option.bind_some]
  by_cases size : m.size < Text.bound64
  · by_cases timestamp : m.timestamp < Text.bound64
    · have offset : ¬m.offset < Text.bound64 := fun small => large ⟨size, timestamp, small⟩
      simp [size, timestamp, offset]
    · simp [size, timestamp]
  · simp [size]

/-- Metadata is read as it was written, or not at all. -/
theorem ofLine_line {m read : Meta} (ok : ofLine m.line = .ok read) : read = m := by
  rw [ofLine, splitWords_line] at ok
  by_cases bounded : m.IsBounded
  · rw [ofFields?_words m bounded] at ok
    exact (Except.ok.inj ok).symm
  · rw [ofFields?_words_large m bounded] at ok
    cases ok

end Meta

/-- A text that comes back whole as one line. -/
structure Wire.IsStatus (text : String) : Prop where
  whole : '\n' ∉ text.toList
  fits : (Wire.line text).length ≤ Wire.maxLine
  plain : Wire.EndsPlain text

namespace Wire

/-- Everything that a node answers on a single line. -/
def statusLines : List String :=
  ["STORED", "EXISTS", "DELETED", "NOT_FOUND", "ERROR", "CLIENT_ERROR bad data chunk",
    "CLIENT_ERROR bad command line format", "SERVER_ERROR object too large for cache",
    "SERVER_ERROR read failed", "SERVER_ERROR write failed"]

theorem statusLines_short : ∀ text ∈ statusLines, '\n' ∉ text.toList ∧ text.utf8ByteSize ≤ 100 ∧
    (text.toList.getLast?.all fun c => c != '\r' && c != '\n') = true := by
  decide

theorem isStatus_of_listed {text : String} (listed : text ∈ statusLines) : IsStatus text := by
  obtain ⟨whole, short, last⟩ := statusLines_short text listed
  refine ⟨whole, ?_, ?_⟩
  · rw [length_line, maxLine]
    omega
  · intro c ending
    rw [ending] at last
    simpa using last

theorem wireReply_listed (why : Failure) : why.wireReply ∈ statusLines := by
  cases why <;> simp [Failure.wireReply, statusLines]

theorem wireReply_ne_stored (why : Failure) : why.wireReply ≠ "STORED" := by
  cases why <;> simp [Failure.wireReply]

theorem readLine_status (ended : Bool) {text : String} (status : IsStatus text) :
    readLine ended (line text) = .done text [] := by
  have read := readLine_line ended [] status.whole status.fits status.plain
  rwa [List.append_nil] at read

end Wire

theorem Node.storeItem_listed (limits : Config.Limits) (now : Nat) (key : String) (item : Item)
    (store : Store) : (Node.storeItem limits now key item store).1 ∈ Wire.statusLines := by
  unfold Node.storeItem
  split
  · simp [Wire.statusLines]
  · split
    · simp [Wire.statusLines]
    · exact Wire.wireReply_listed _

/-- A set was stored exactly when the node says so. -/
theorem Node.storeItem_stored {limits : Config.Limits} {now : Nat} {key : String} {item : Item}
    {store : Store} (stored : (Node.storeItem limits now key item store).1 = "STORED") :
    (∃ rev, (store.set key item now).1 = .ok rev) ∧
      (Node.storeItem limits now key item store).2 = (store.set key item now).2 := by
  unfold Node.storeItem at stored ⊢
  split
  · rename_i invalid
    rw [invalid] at stored
    exact absurd stored (by simp)
  · rename_i valid
    rw [valid] at stored
    split
    · rename_i rev after outcome
      rw [outcome]
      exact ⟨⟨rev, rfl⟩, rfl⟩
    · rename_i why after outcome
      rw [outcome] at stored
      exact absurd stored (Wire.wireReply_ne_stored why)

/-- A session goes on where a frame ended. -/
theorem Node.session_frame {limits : Config.Limits} {bytes rest : Bytes} {frame : Wire.Frame}
    (now : Nat) (store : Store) (filled : bytes ≠ [])
    (read : Wire.readFrame limits.bodyMax true bytes = some (frame, rest))
    (plain : frame ≠ .eof ∧ frame ≠ .cut ∧ frame ≠ .request .quit) :
    Node.session limits now bytes store =
      ((Node.reply limits now frame store).1 ::
          (Node.session limits now rest (Node.reply limits now frame store).2).1,
        (Node.session limits now rest (Node.reply limits now frame store).2).2) := by
  obtain ⟨more, complete, goes_on⟩ := plain
  have answered : Wire.answered (frame :: Wire.frames limits.bodyMax rest) =
      frame :: Wire.answered (Wire.frames limits.bodyMax rest) := by
    cases frame with
    | eof => exact absurd rfl more
    | cut => exact absurd rfl complete
    | request r =>
      cases r with
      | quit => exact absurd rfl goes_on
      | _ => rfl
    | _ => rfl
  rw [Node.session, Wire.frames_cons filled read more complete, answered]
  rfl

namespace Ask

/-- Questions that reach a node as they were meant. -/
def Carried (limits : Config.Limits) : Ask → Prop
  | get key | delete key => Wire.CarriesKey key
  | getMeta key => Wire.CarriesKey (Key.metaQueryFor key)
  | getMulti keys => (∀ key ∈ keys, Wire.CarriesKey key) ∧
      (Wire.getRequest keys true).length ≤ Wire.maxLine
  | set key item => Wire.CarriesKey key ∧ item.value.length ≤ 4 * limits.bodyMax ∧
      item.value.length + 2 < Text.bound64

/-- What a node takes a question for. -/
def frame (bodyMax : Nat) : Ask → Wire.Frame
  | get key => .request (.get [key] true)
  | getMeta key => .request (.get [Key.metaQueryFor key] false)
  | getMulti [] => .rejected (.protocol "get without key")
  | getMulti keys => .request (.get keys true)
  | set key item => Wire.setFrame bodyMax key item
  | delete key => .request (.delete key false)

theorem length_getRequest_one {key : String} (withRev : Bool) (carried : Wire.CarriesKey key) :
    (Wire.getRequest [key] withRev).length ≤ Wire.maxLine := by
  have short := carried.short
  have get : "get".utf8ByteSize = 3 := rfl
  have gets : "gets".utf8ByteSize = 4 := rfl
  rw [Wire.getRequest_eq withRev (by simp), Wire.length_line,
    Wire.utf8ByteSize_words_cons _ _ (by simp), String.intercalate_singleton, Wire.maxLine]
  cases withRev
  · simp only [Bool.false_eq_true, if_false, get]
    omega
  · simp only [if_true, gets]
    omega

theorem readFrame_toWire {limits : Config.Limits} (ended : Bool) {q : Ask} (rest : Bytes)
    (carried : q.Carried limits) :
    Wire.readFrame limits.bodyMax ended (q.toWire ++ rest) =
      some (q.frame limits.bodyMax, rest) := by
  cases q with
  | get key =>
    exact Wire.readFrame_getRequest rest (by simp) (by simpa using carried.word)
      (length_getRequest_one true carried)
  | getMeta key =>
    exact Wire.readFrame_getRequest rest (by simp) (by simpa using Wire.CarriesKey.word carried)
      (length_getRequest_one false carried)
  | getMulti keys =>
    cases keys with
    | nil => exact Wire.readFrame_getRequest_nil rest
    | cons key others =>
      exact Wire.readFrame_getRequest rest (by simp) (fun k listed => (carried.1 k listed).word)
        carried.2
  | set key item => exact Wire.readFrame_setRequest rest carried.1 carried.2.1 carried.2.2
  | delete key => exact Wire.readFrame_deleteRequest rest carried

theorem frame_plain (bodyMax : Nat) (q : Ask) :
    q.frame bodyMax ≠ .eof ∧ q.frame bodyMax ≠ .cut ∧ q.frame bodyMax ≠ .request .quit := by
  cases q with
  | getMulti keys => cases keys <;> simp [frame]
  | set key item =>
    simp only [frame, Wire.setFrame]
    split
    · simp
    · split <;> simp
  | _ => simp [frame]

theorem toWire_ne_nil (q : Ask) : q.toWire ≠ [] := by
  have filled (text : String) : Wire.line text ≠ [] := by simp [Wire.line, Bytes.crlf]
  cases q with
  | set key item => simp [toWire, Wire.setRequest, filled]
  | _ => exact filled _

/-- A node does one thing for a question, and sends one reply. -/
theorem session_toWire {limits : Config.Limits} {q : Ask} (now : Nat) (store : Store)
    (carried : q.Carried limits) :
    Node.session limits now q.toWire store =
      ([(Node.reply limits now (q.frame limits.bodyMax) store).1],
        (Node.reply limits now (q.frame limits.bodyMax) store).2) := by
  have read := readFrame_toWire true [] carried
  rw [List.append_nil] at read
  have nothing_more (after : Store) : Node.session limits now [] after = ([], after) := by
    rw [Node.session, Wire.frames_nil]
    rfl
  rw [Node.session_frame now store (toWire_ne_nil q) read (frame_plain limits.bodyMax q),
    nothing_more]

/-- What a node does for a question: its reply and what it stores then. -/
def served (limits : Config.Limits) (now : Nat) (q : Ask) (store : Store) : Bytes × Store :=
  Node.reply limits now (q.frame limits.bodyMax) store

theorem served_set (limits : Config.Limits) (now : Nat) (key : String) (item : Item)
    (store : Store) :
    (∃ why : Failure, served limits now (set key item) store =
      (Wire.line why.wireReply, store)) ∨
    served limits now (set key item) store =
      (Wire.line (Node.storeItem limits now key item store).1,
        (Node.storeItem limits now key item store).2) := by
  simp only [served, frame, Wire.setFrame]
  split
  · exact .inl ⟨_, rfl⟩
  · split
    · exact .inl ⟨_, rfl⟩
    · exact .inr rfl

theorem served_delete (limits : Config.Limits) (now : Nat) (key : String) (store : Store) :
    served limits now (delete key) store =
      (Wire.line (if (store.delete key now).1 then "DELETED" else "NOT_FOUND"),
        (store.delete key now).2) :=
  rfl

theorem served_get (limits : Config.Limits) (now : Nat) (key : String) (store : Store) :
    served limits now (get key) store =
      (Wire.values (Node.found store true [key]) true, store) :=
  rfl

theorem served_getMeta (limits : Config.Limits) (now : Nat) (key : String) (store : Store) :
    served limits now (getMeta key) store =
      (Wire.values (Node.found store false [Key.metaQueryFor key]) false, store) :=
  rfl

theorem served_getMulti (limits : Config.Limits) (now : Nat) (keys : List String)
    (store : Store) :
    served limits now (getMulti keys) store =
      if keys = [] then (Wire.line "CLIENT_ERROR bad command line format", store)
      else (Wire.values (Node.found store true keys) true, store) := by
  cases keys <;> rfl

theorem carries_found (store : Store) (withRev : Bool) {keys : List String}
    (carried : ∀ key ∈ keys, Wire.CarriesKey key) :
    ∀ entry ∈ Node.found store withRev keys, Wire.CarriesKey entry.1 := by
  intro entry listed
  obtain ⟨key, asked, found⟩ := List.mem_filterMap.mp listed
  obtain ⟨item, -, rfl⟩ := Option.map_eq_some_iff.mp found
  exact carried key asked

/-- A reader of values takes the whole answer, or fails. -/
theorem readValues_found (bodyMax : Nat) (ended withRev : Bool) (store : Store)
    (keys : List String) (carried : ∀ key ∈ keys, Wire.CarriesKey key) :
    (∃ why left, Wire.readValues bodyMax ended
      (Wire.values (Node.found store withRev keys) withRev) = .failed why left) ∨
    Wire.readValues bodyMax ended (Wire.values (Node.found store withRev keys) withRev) =
      .done ((Node.found store withRev keys).map
        fun entry => (entry.1, Wire.shown withRev entry.2)) [] := by
  have known := carries_found store withRev carried
  by_cases refused : ∃ entry ∈ Node.found store withRev keys,
      ¬Wire.Accepts bodyMax entry.2.value.length
  · have read := Wire.readValuesAfter_some_refused ended withRev [] _ []
      known refused
    rw [List.append_nil] at read
    exact .inl read
  · have accepted : ∀ entry ∈ Node.found store withRev keys,
        Wire.Accepts bodyMax entry.2.value.length := fun entry listed =>
      Classical.byContradiction fun large => refused ⟨entry, listed, large⟩
    have read := Wire.readValues_values ended withRev _ [] known accepted
    rw [List.append_nil] at read
    exact .inr read

theorem found_one (store : Store) (withRev : Bool) (key : String) :
    Node.found store withRev [key] = match Node.find? store withRev key with
      | some item => [(key, item)]
      | none => [] := by
  simp only [Node.found, List.filterMap_cons, List.filterMap_nil]
  cases Node.find? store withRev key <;> rfl

theorem readAnswer_set {node key text : String} {item : Item} {bodyMax : Nat} {ended : Bool}
    (listed : text ∈ Wire.statusLines) :
    readAnswer node bodyMax ended (Wire.line text) (set key item) =
      some ⟨storedOf node key text, true, []⟩ := by
  rw [readAnswer, Wire.readLine_status _ (Wire.isStatus_of_listed listed)]
  rfl

theorem readAnswer_delete {node key text : String} {bodyMax : Nat} {ended : Bool}
    (listed : text ∈ Wire.statusLines) :
    readAnswer node bodyMax ended (Wire.line text) (delete key) =
      some ⟨deletedOf node text, true, []⟩ := by
  rw [readAnswer, Wire.readLine_status _ (Wire.isStatus_of_listed listed)]
  rfl

theorem readAnswer_refused_getMulti (node : String) (keys : List String) (bodyMax : Nat) :
    ∃ why, readAnswer node bodyMax false (Wire.line "CLIENT_ERROR bad command line format")
      (getMulti keys) = some ⟨.error why, false, []⟩ := by
  have listed : "CLIENT_ERROR bad command line format" ∈ Wire.statusLines := by
    simp [Wire.statusLines]
  have read := Wire.readLine_status false (Wire.isStatus_of_listed listed)
  have bad : Wire.valueLine bodyMax "CLIENT_ERROR bad command line format" =
      .error (.protocol
        ("unexpected reply: " ++ "CLIENT_ERROR bad command line format")) := by rfl
  have failed : Wire.readValues bodyMax false (Wire.line "CLIENT_ERROR bad command line format") =
      .failed _ [] := Wire.readValuesAfter_error read (by decide) bad
  rw [readAnswer, failed]
  exact ⟨_, rfl⟩

theorem stored_or_refused (limits : Config.Limits) (now : Nat) (key : String) (item : Item)
    (store : Store) : ∃ text ∈ Wire.statusLines,
      (served limits now (set key item) store).1 = Wire.line text ∧ (text = "STORED" →
        (∃ rev, (store.set key item now).1 = .ok rev) ∧
          (served limits now (set key item) store).2 = (store.set key item now).2) := by
  obtain ⟨why, refused⟩ | stored := served_set limits now key item store
  · refine ⟨why.wireReply, Wire.wireReply_listed why, by rw [refused], fun same => ?_⟩
    exact absurd same (Wire.wireReply_ne_stored why)
  · refine ⟨_, Node.storeItem_listed limits now key item store, by rw [stored], fun same => ?_⟩
    rw [stored]
    exact Node.storeItem_stored same

/-- An answer that was read to its end leaves nothing on the connection. -/
theorem rest_of_clean {limits : Config.Limits} {now : Nat} {node : String} {bodyMax : Nat}
    {q : Ask} {store : Store} {x : Exchange q.Answer} (carried : q.Carried limits)
    (answered : readAnswer node bodyMax false (served limits now q store).1 q = some x)
    (clean : x.isClean = true) : x.rest = [] := by
  have of_values {α : Type} {withRev : Bool} {keys : List String} {size : Nat}
      {interpret : List (String × Item) → Except Failure α} {y : Exchange α}
      (known : ∀ key ∈ keys, Wire.CarriesKey key)
      (read : Exchange.ofReading interpret (Wire.readValues size false
        (Wire.values (Node.found store withRev keys) withRev)) = some y)
      (good : y.isClean = true) : y.rest = [] := by
    obtain ⟨why, left, failed⟩ | done := readValues_found size false withRev store
      keys known
    · rw [failed] at read
      obtain rfl := Option.some.inj read
      exact absurd good (by simp)
    · rw [done] at read
      obtain rfl := Option.some.inj read
      rfl
  cases q with
  | get key =>
    have known : Wire.CarriesKey key := carried
    rw [served_get] at answered
    exact of_values (by simpa using known) answered clean
  | getMeta key =>
    have known : Wire.CarriesKey (Key.metaQueryFor key) := carried
    rw [served_getMeta] at answered
    exact of_values (by simpa using known) answered clean
  | getMulti keys =>
    rw [served_getMulti] at answered
    split at answered
    · obtain ⟨why, failed⟩ := readAnswer_refused_getMulti node keys bodyMax
      rw [failed] at answered
      obtain rfl := Option.some.inj answered
      exact absurd clean (by simp)
    · exact of_values carried.1 answered clean
  | set key item =>
    obtain ⟨text, listed, reply, -⟩ := stored_or_refused limits now key item
      store
    rw [reply, readAnswer_set listed] at answered
    obtain rfl := Option.some.inj answered
    rfl
  | delete key =>
    have listed : (if (store.delete key now).1 then "DELETED" else "NOT_FOUND") ∈
        Wire.statusLines := by split <;> simp [Wire.statusLines]
    rw [served_delete, readAnswer_delete listed] at answered
    obtain rfl := Option.some.inj answered
    rfl

/-- A set that is acknowledged was taken by the store. -/
theorem stored_of_ok {limits : Config.Limits} {now : Nat} {node : String} {bodyMax : Nat}
    {key : String} {item : Item} {store : Store} {x : Exchange Unit}
    (answered : readAnswer node bodyMax false (served limits now (set key item) store).1
      (set key item) = some x) (ok : x.result = .ok ()) :
    (∃ rev, (store.set key item now).1 = .ok rev) ∧
      (served limits now (set key item) store).2 = (store.set key item now).2 := by
  obtain ⟨text, listed, reply, stored⟩ := stored_or_refused limits now key item
    store
  rw [reply, readAnswer_set listed] at answered
  obtain rfl := Option.some.inj answered
  apply stored
  by_cases same : text = "STORED"
  · exact same
  · simp only [storedOf, beq_iff_eq, same, if_false] at ok
    split at ok <;> cases ok

/-- A value that is told is the one that is stored. -/
theorem found_of_ok {limits : Config.Limits} {now : Nat} {node : String} {bodyMax : Nat}
    {key : String} {store : Store} {x : Exchange (Option Item)} {found : Option Item}
    (carried : Wire.CarriesKey key)
    (answered : readAnswer node bodyMax false (served limits now (get key) store).1 (get key) =
      some x) (ok : x.result = .ok found) : found = Node.find? store true key := by
  rw [served_get] at answered
  have read := answered
  unfold readAnswer at read
  obtain ⟨why, left, failed⟩ | done := readValues_found bodyMax false true store
    [key] (by simpa using carried)
  · rw [failed] at read
    obtain rfl := Option.some.inj read
    cases ok
  · rw [done] at read
    obtain rfl := Option.some.inj read
    rw [← Except.ok.inj ok, found_one]
    cases Node.find? store true key <;> simp [Assoc.get?, Wire.shown]

/-- So are the values of several keys. -/
theorem values_of_ok {limits : Config.Limits} {now : Nat} {node : String} {bodyMax : Nat}
    {keys : List String} {store : Store} {x : Exchange (List (String × Item))}
    {values : List (String × Item)} (carried : ∀ key ∈ keys, Wire.CarriesKey key)
    (answered : readAnswer node bodyMax false (served limits now (getMulti keys) store).1
      (getMulti keys) = some x) (ok : x.result = .ok values) :
    values = Node.found store true keys := by
  rw [served_getMulti] at answered
  split at answered
  · obtain ⟨why, refused⟩ := readAnswer_refused_getMulti node keys bodyMax
    rw [refused] at answered
    obtain rfl := Option.some.inj answered
    cases ok
  · unfold readAnswer at answered
    obtain ⟨why, left, failed⟩ | done := readValues_found bodyMax false true store keys carried
    · rw [failed] at answered
      obtain rfl := Option.some.inj answered
      cases ok
    · rw [done] at answered
      obtain rfl := Option.some.inj answered
      rw [← Except.ok.inj ok]
      exact List.map_id _

/-- Metadata that is told is that of the record that is stored. -/
theorem meta_of_ok {limits : Config.Limits} {now : Nat} {node : String} {bodyMax : Nat}
    {key : String} {store : Store} {x : Exchange (Option Meta)} {found : Option Meta}
    (filled : key ≠ "") (plain : Key.metaQuery? key = none)
    (carried : Wire.CarriesKey (Key.metaQueryFor key))
    (answered : readAnswer node bodyMax false (served limits now (getMeta key) store).1
      (getMeta key) = some x) (ok : x.result = .ok found) : found = store.getMeta? key := by
  rw [served_getMeta] at answered
  have read := answered
  unfold readAnswer at read
  have asked : Node.find? store false (Key.metaQueryFor key) =
      (store.getMeta? key).map fun m => ⟨0, Text.Utf8.encode m.line, m.rev⟩ := by
    rw [Node.find?, Key.metaQuery?_for filled plain]
  obtain ⟨why, left, failed⟩ | done := readValues_found metaMax false false store
    [Key.metaQueryFor key] (by simpa using carried)
  · rw [failed] at read
    obtain rfl := Option.some.inj read
    cases ok
  · rw [done, found_one, asked] at read
    obtain rfl := Option.some.inj read
    cases stored : store.getMeta? key with
    | none =>
      rw [stored] at ok
      exact (Except.ok.inj ok).symm
    | some m =>
      rw [stored] at ok
      simp only [Option.map_some, List.map_cons, List.map_nil, metaOf, Wire.shown,
        Bool.false_eq_true, if_false, Text.Utf8.decodeLossy_encode] at ok
      cases line : Meta.ofLine m.line with
      | error why =>
        rw [line] at ok
        cases ok
      | ok told =>
        rw [line] at ok
        rw [← Except.ok.inj ok, Meta.ofLine_line line]

end Ask

end QuorumKv
