import QuorumKv.Proofs.Node.Exchange
import QuorumKv.Proofs.Wire.RoundTrip

/-! A set among other things that are sent on a connection. As long as the node reads its value, if
only to throw it away, the set is one frame with one reply, and the next thing that the node reads
is what was sent next. A size that the node refuses unread leaves the value on the connection, as
the beginning of what was sent next. -/
namespace QuorumKv

open Wire (Outgoing)

namespace Node

variable {limits : Config.Limits} {key : String} {item : Item}

/-- A set that is read has one line for a reply. It leaves the store alone or stores its item. -/
theorem reply_set (limits : Config.Limits) (now : Nat) (key : String) (item : Item)
    (store : Store) : ∃ text ∈ Wire.statusLines, ∃ after,
      reply limits now (Wire.setFrame limits.bodyMax key item) store = (Wire.line text, after) ∧
        (after = store ∨ (text, after) = storeItem limits now key item store) := by
  obtain ⟨why, refused⟩ | stored := Ask.served_set limits now key item store
  · exact ⟨why.wireReply, Wire.wireReply_listed why, store, refused, .inl rfl⟩
  · exact ⟨_, storeItem_listed limits now key item store, _, stored, .inr rfl⟩

variable {maxKey proxyMax : Nat}

/-- A set whose value the node reads is one frame, and the next one is what was sent next. -/
theorem readFrame_set (limits : Config.Limits) (ended : Bool) (more : Bytes)
    (sendable : (Outgoing.set key item).Sendable maxKey proxyMax)
    (read : item.value.length ≤ 4 * limits.bodyMax) :
    Wire.readFrame limits.bodyMax ended ((Ask.set key item).toWire ++ more) =
      some (Wire.setFrame limits.bodyMax key item, more) := by
  have accepted := Wire.accepts_of_held (sendable.allowed item rfl) (sendable.held item rfl)
  have word := sendable.isWord List.mem_cons_self
  exact Wire.readFrame_setRequest_of_fits more word sendable.fits read accepted.2

theorem session_set (limits : Config.Limits) (now : Nat) (store : Store) (more : Bytes)
    (sendable : (Outgoing.set key item).Sendable maxKey proxyMax)
    (read : item.value.length ≤ 4 * limits.bodyMax) :
    ∃ text ∈ Wire.statusLines, ∃ after,
      (after = store ∨ (text, after) = storeItem limits now key item store) ∧
      session limits now ((Ask.set key item).toWire ++ more) store =
        (Wire.line text :: (session limits now more after).1, (session limits now more after).2) := by
  obtain ⟨text, listed, after, replied, stored⟩ := reply_set limits now key item store
  have filled : (Ask.set key item).toWire ++ more ≠ [] := by simp [Ask.toWire_ne_nil]
  have goes_on := session_frame now store filled (readFrame_set limits true more sendable read)
    (Ask.frame_plain limits.bodyMax (.set key item))
  rw [replied] at goes_on
  exact ⟨text, listed, after, stored, goes_on⟩

/-- Sets that follow one another on a connection have one line each. -/
theorem session_sets (limits : Config.Limits) (now : Nat) (store : Store) (more : Bytes)
    {sets : List (String × Item)}
    (sendable : ∀ s ∈ sets, (Outgoing.set s.1 s.2).Sendable maxKey proxyMax)
    (read : ∀ s ∈ sets, s.2.value.length ≤ 4 * limits.bodyMax) :
    ∃ texts : List String, texts.length = sets.length ∧ (∀ text ∈ texts, text ∈ Wire.statusLines) ∧
      ∃ after, session limits now (sets.flatMap (fun s => (Ask.set s.1 s.2).toWire) ++ more) store =
        (texts.map Wire.line ++ (session limits now more after).1,
          (session limits now more after).2) := by
  induction sets generalizing store with
  | nil => exact ⟨[], rfl, by simp, store, rfl⟩
  | cons s later ih =>
    rw [List.forall_mem_cons] at sendable read
    obtain ⟨text, listed, middle, -, first⟩ := session_set limits now store
      (later.flatMap (fun s => (Ask.set s.1 s.2).toWire) ++ more) sendable.1 read.1
    obtain ⟨texts, length, all, after, others⟩ := ih middle sendable.2 read.2
    refine ⟨text :: texts, congrArg (· + 1) length, ?_, after, ?_⟩
    · exact List.forall_mem_cons.mpr ⟨listed, all⟩
    · rw [List.flatMap_cons, List.append_assoc, first, others]
      rfl

/-- A set whose value the node reads is in step: one frame, one reply, which the proxy takes off the
connection whole, and behind it whatever is sent next. A value of more than four times the node's
limit is refused with one reply, and is itself what the node reads next. -/
theorem set_in_step (limits : Config.Limits) (now : Nat) (store : Store) (more : Bytes)
    (sendable : (Outgoing.set key item).Sendable maxKey proxyMax) :
    let sent := (Ask.set key item).toWire
    (item.value.length ≤ 4 * limits.bodyMax →
      (∀ ended, Wire.readFrame limits.bodyMax ended (sent ++ more) =
        some (Wire.setFrame limits.bodyMax key item, more)) ∧
      ∃ text ∈ Wire.statusLines, ∃ after,
        (after = store ∨ (text, after) = storeItem limits now key item store) ∧
        session limits now (sent ++ more) store =
          (Wire.line text :: (session limits now more after).1,
            (session limits now more after).2) ∧
        ∀ node, Ask.readAnswer node proxyMax false (Wire.line text) (.set key item) =
          some ⟨Ask.storedOf node key text, true, []⟩) ∧
    (4 * limits.bodyMax < item.value.length →
      (∀ ended, Wire.readFrame limits.bodyMax ended (sent ++ more) =
        some (.rejected (.protocol s!"declared size {item.value.length} is not acceptable"),
          item.value ++ Bytes.crlf ++ more)) ∧
      session limits now (sent ++ more) store =
        (Wire.line "CLIENT_ERROR bad command line format" ::
            (session limits now (item.value ++ Bytes.crlf ++ more) store).1,
          (session limits now (item.value ++ Bytes.crlf ++ more) store).2)) := by
  intro sent
  constructor
  · intro read
    obtain ⟨text, listed, after, stored, goes_on⟩ := session_set limits now store more sendable read
    exact ⟨fun ended => readFrame_set limits ended more sendable read, text, listed, after, stored,
      goes_on, fun node => Ask.readAnswer_set listed⟩
  · intro unread
    have refused : ∀ ended, Wire.readFrame limits.bodyMax ended (sent ++ more) =
        some (.rejected (.protocol s!"declared size {item.value.length} is not acceptable"),
          item.value ++ Bytes.crlf ++ more) := by
      intro ended
      have accepted := Wire.accepts_of_held (sendable.allowed item rfl) (sendable.held item rfl)
      have word := sendable.isWord List.mem_cons_self
      exact Wire.readFrame_setRequest_unread more word sendable.fits unread accepted.small
    have filled : sent ++ more ≠ [] := by simp [sent, Ask.toWire_ne_nil]
    exact ⟨refused, session_frame now store filled (refused true) (by simp)⟩

/-- A value of three times the node's limit, with a command in it, and another set behind it. -/
theorem set_in_step_discarded :
    let more := (Ask.set "k" ⟨0, [120], .auto⟩).toWire
    let sent := (Ask.set "käse" Outgoing.commandInValue).toWire
    (Outgoing.set "käse" Outgoing.commandInValue).Sendable 250 1024 ∧
      Outgoing.commandInValue.value.length ≤ 4 * 4 ∧
      Wire.readFrame 4 false (sent ++ more) = some (.rejected (.tooLarge 12 4), more) ∧
      ∃ text ∈ Wire.statusLines, ∃ after,
        session ⟨250, 4⟩ 0 (sent ++ more) .empty =
          (Wire.line text :: (session ⟨250, 4⟩ 0 more after).1,
            (session ⟨250, 4⟩ 0 more after).2) := by
  intro more sent
  have sendable : (Outgoing.set "käse" Outgoing.commandInValue).Sendable 250 1024 :=
    Outgoing.sendable_commandInValue _ (by simp)
  have discarded : Outgoing.commandInValue.value.length ≤ 4 * 4 := by decide
  obtain ⟨in_step, -⟩ := set_in_step ⟨250, 4⟩ 0 .empty more sendable
  obtain ⟨framed, text, listed, after, -, goes_on, -⟩ := in_step discarded
  exact ⟨sendable, discarded, framed false, text, listed, after, goes_on⟩

/-- What a client may hand to the proxy for a value. -/
def deletion : Item := ⟨0, Text.Utf8.encode "delete k", .auto⟩

theorem sendable_deletion : (Outgoing.set "j" deletion).Sendable 250 8 :=
  ⟨by decide, by decide, by decide, by decide, by decide, by decide⟩

/-- A node that takes values of one byte refuses the size, and reads the value as a command. -/
theorem readFrame_deletion (ended : Bool) :
    Wire.readFrame 1 ended (Ask.set "j" deletion).toWire =
      some (.rejected (.protocol "declared size 8 is not acceptable"), (Ask.delete "k").toWire) ∧
    Wire.readFrame 1 ended (Ask.delete "k").toWire = some (.request (.delete "k" false), []) := by
  constructor
  · have read := @Wire.readFrame_setRequest_unread 1 ended "j" deletion []
      (sendable_deletion.isWord List.mem_cons_self) sendable_deletion.fits (by decide) (by decide)
    rwa [List.append_nil, List.append_nil] at read
  · have word : Text.IsWord "k" := (@Key.isWord_of_validate 250 "k" (by decide)).1
    have read := @Wire.readFrame_deleteRequest_of_fits 1 ended "k" [] word (by decide)
    rwa [List.append_nil] at read

/-- The node deletes the key that the value names. The proxy has then read a whole answer, and the
next one waits on the connection that it keeps. -/
theorem value_run_as_command :
    let store := (Store.empty.set "k" ⟨0, [120], .auto⟩ 0).2
    let sent := (Ask.set "j" deletion).toWire
    (Outgoing.set "j" deletion).Sendable 250 8 ∧
      Wire.frames 1 sent = [.rejected (.protocol "declared size 8 is not acceptable"),
        .request (.delete "k" false), .eof] ∧
      session ⟨250, 1⟩ 0 sent store = ([Wire.line "CLIENT_ERROR bad command line format",
        Wire.line "DELETED"], (store.delete "k" 0).2) ∧
      (store.get? "k").isSome = true ∧ (store.delete "k" 0).2.get? "k" = none ∧
      Ask.readAnswer "n1" 8 false (session ⟨250, 1⟩ 0 sent store).1.flatten (.set "j" deletion) =
        some ⟨.error (.node "n1" "CLIENT_ERROR bad command line format"), true,
          Wire.line "DELETED"⟩ := by
  intro store sent
  obtain ⟨refused, ran⟩ := readFrame_deletion true
  have frames : Wire.frames 1 sent = [.rejected (.protocol "declared size 8 is not acceptable"),
      .request (.delete "k" false), .eof] := by
    rw [Wire.frames_cons (Ask.toWire_ne_nil _) refused (by simp) (by simp),
      Wire.frames_of_one (Ask.toWire_ne_nil _) ran (by simp) (by simp)]
  have session_eq : session ⟨250, 1⟩ 0 sent store =
      ([Wire.line "CLIENT_ERROR bad command line format", Wire.line "DELETED"],
        (store.delete "k" 0).2) := by
    rw [session, frames]
    decide
  have listed : "CLIENT_ERROR bad command line format" ∈ Wire.statusLines := by
    simp [Wire.statusLines]
  refine ⟨sendable_deletion, frames, session_eq, by decide, by decide, ?_⟩
  obtain ⟨whole, fits, plain⟩ := Wire.isStatus_of_listed listed
  rw [session_eq, List.flatten_cons, List.flatten_singleton, Ask.readAnswer,
    Wire.readLine_line false _ whole fits plain]
  rfl

end Node

end QuorumKv
