import QuorumKv.Dispatch.Memory
import QuorumKv.Proofs.Dispatch.Trace
import QuorumKv.Proofs.Node.Exchange
import QuorumKv.Proofs.Wire.Commands
import QuorumKv.Proxy.Session

/-! How many replies a client gets on a connection, of a node or of the proxy. Every command has one,
in order, except those that ask for none. These have none either, whatever comes of them, unless the
data block of a set is refused before there is a request: then an error line is sent all the same. -/
namespace QuorumKv

namespace Wire

/-- One reply: a line, or the values that were found and the line behind them. -/
inductive IsReply : Bytes → Prop
  | status {text : String} (whole : '\n' ∉ text.toList) : IsReply (line text)
  | values {found : List (String × Item)} {withRev : Bool}
      (keys : ∀ entry ∈ found, Text.IsWord entry.1) : IsReply (values found withRev)

/-- What a command is answered with. -/
inductive Answers (bodyMax : Nat) : List String × Frame → Bytes → Prop
  | silent {words : List String} {r : Request} (quiet : AsksSilence words) :
      Answers bodyMax (words, .request r) []
  | refused {args : List String} {s : SetLine} {why : Failure}
      (quiet : AsksSilence ("set" :: args)) (parsed : setLine? args = some s)
      (refusal : IsRefusal bodyMax s why) :
      Answers bodyMax ("set" :: args, .rejected why) (line why.wireReply)
  | one {words : List String} {frame : Frame} {reply : Bytes} (loud : ¬AsksSilence words)
      (single : IsReply reply) : Answers bodyMax (words, frame) reply

theorem isReply_of_listed {text : String} (listed : text ∈ statusLines) : IsReply (line text) :=
  .status (isStatus_of_listed listed).whole

/-- A reply that fits a frame, whatever its line was. -/
structure Replies (frame : Frame) (reply : Bytes) : Prop where
  silent : frame.isSilent = true → reply = []
  one : frame.isSilent = false → IsReply reply
  refused : ∀ why, frame = .rejected why → reply = line why.wireReply

theorem answers_of_replies {bodyMax : Nat} {words : List String} {frame : Frame} {reply : Bytes}
    (made : Reads bodyMax words frame) (goes_on : frame.goesOn = true)
    (replies : Replies frame reply) : Answers bodyMax (words, frame) reply := by
  by_cases quiet : AsksSilence words
  · have complete : frame ≠ .cut := by
      rintro rfl
      cases goes_on
    obtain ⟨silent, r, rfl⟩ | ⟨args, s, why, rfl, parsed, refusal, rfl⟩ :=
      silent_of_reads made quiet complete
    · rw [replies.silent silent]
      exact .silent quiet
    · rw [replies.refused why rfl]
      exact .refused quiet parsed refusal
  · exact .one quiet (replies.one (loud_of_reads made quiet))

/-- The reply to a request that may ask for none. -/
theorem replies_status {r : Request} {noreply : Bool} {text : String}
    (asks : (Frame.request r).isSilent = noreply) (listed : text ∈ statusLines) :
    Replies (.request r) (if noreply then [] else line text) := by
  refine ⟨?_, ?_, nofun⟩
  · intro silent
    rw [← asks, silent]
    rfl
  · intro loud
    rw [← asks, loud]
    exact isReply_of_listed listed

theorem replies_one {frame : Frame} {reply : Bytes} (loud : frame.isSilent = false)
    (single : IsReply reply) (accepted : ∀ why, frame ≠ .rejected why) : Replies frame reply :=
  ⟨fun silent => absurd (silent.symm.trans loud) (by decide), fun _ => single,
    fun why same => absurd same (accepted why)⟩

theorem replies_rejected (why : Failure) : Replies (.rejected why) (line why.wireReply) :=
  ⟨nofun, fun _ => isReply_of_listed (wireReply_listed why), fun _ same => by
    rw [Frame.rejected.inj same]⟩

theorem isReply_version : IsReply (line ("VERSION " ++ release)) :=
  .status (by decide)

theorem isReply_error : IsReply (line "ERROR") :=
  isReply_of_listed (by decide)

end Wire

open Wire

variable {limits : Config.Limits} {bodyMax : Nat}

namespace Node

theorem keys_found {store : Store} {withRev : Bool} {keys : List String}
    (words : ∀ key ∈ keys, Text.IsWord key) :
    ∀ entry ∈ found store withRev keys, Text.IsWord entry.1 := by
  intro entry listed
  obtain ⟨key, asked, known⟩ := List.mem_filterMap.mp listed
  obtain ⟨item, -, rfl⟩ := Option.map_eq_some_iff.mp known
  exact words key asked

theorem replies_reply (now : Nat) {frame : Frame} (store : Store) (goes_on : frame.goesOn = true)
    (words : ∀ keys withRev, frame = .request (.get keys withRev) →
      ∀ key ∈ keys, Text.IsWord key) :
    Replies frame (reply limits now frame store).1 := by
  cases frame with
  | eof | cut => cases goes_on
  | unknown => exact replies_one rfl isReply_error nofun
  | rejected why => exact replies_rejected why
  | request r =>
    cases r with
    | quit => cases goes_on
    | version => exact replies_one rfl isReply_version nofun
    | get keys withRev => exact replies_one rfl (.values (keys_found (words keys withRev rfl))) nofun
    | set key item noreply => exact replies_status rfl (storeItem_listed limits now key item store)
    | delete key noreply =>
      have either : ∀ known : Bool, (if known then "DELETED" else "NOT_FOUND") ∈ statusLines := by
        decide
      exact replies_status rfl (either _)

theorem answers_session (limits : Config.Limits) (now : Nat) (bytes : Bytes) (store : Store) :
    List.Forall₂ (Answers limits.bodyMax) (commands limits.bodyMax bytes)
      (session limits now bytes store).1 := by
  have each (cs : List (List String × Frame))
      (read : ∀ c ∈ cs, Reads limits.bodyMax c.1 c.2 ∧ c.2.goesOn = true) :
      ∀ store, List.Forall₂ (Answers limits.bodyMax) cs
        (replies limits now (cs.map (·.2)) store).1 := by
    induction cs with
    | nil => exact fun _ => .nil
    | cons c cs ih =>
      intro store
      obtain ⟨⟨made, goes_on⟩, others⟩ := List.forall_mem_cons.mp read
      refine .cons (answers_of_replies made goes_on ?_) (ih others _)
      refine replies_reply now store goes_on fun keys withRev same => ?_
      rw [same] at made
      exact isWord_of_reads made
  rw [session, ← frames_commands]
  exact each _ (fun c => reads_of_mem_commands) store

end Node

namespace Proxy.Session

open Dispatch (Mark Script)

variable {s : Session} {trace : List Mark}

theorem listed_of_storeItem {key : String} {item : Item} {text : String}
    (ran : (s.storeItem key item).ComesTo trace text) : text ∈ statusLines := by
  unfold storeItem at ran
  split at ran
  · obtain ⟨_, r, _, -, -, ended⟩ := Script.comesTo_bind ran
    cases r with
    | ok =>
      obtain ⟨-, rfl⟩ := Script.comesTo_pure ended
      decide
    | error e =>
      obtain ⟨-, rfl⟩ := Script.comesTo_pure ended
      exact wireReply_listed e
  · obtain ⟨-, rfl⟩ := Script.comesTo_pure ran
    decide

theorem listed_of_deleteKey {key text : String} (ran : (s.deleteKey key).ComesTo trace text) :
    text ∈ statusLines := by
  unfold deleteKey at ran
  split at ran
  · obtain ⟨_, r, _, -, -, ended⟩ := Script.comesTo_bind ran
    cases r with
    | ok found =>
      cases found with
      | true =>
        obtain ⟨-, rfl⟩ := Script.comesTo_pure ended
        decide
      | false =>
        obtain ⟨-, rfl⟩ := Script.comesTo_pure ended
        decide
    | error e =>
      obtain ⟨-, rfl⟩ := Script.comesTo_pure ended
      exact wireReply_listed e
  · obtain ⟨-, rfl⟩ := Script.comesTo_pure ran
    decide

/-- Only keys that were asked for are found. -/
theorem keys_lookup {keys : List String} {found : List (String × Item)}
    (ran : (s.lookup keys).ComesTo trace (.ok found)) : ∀ entry ∈ found, entry.1 ∈ keys := by
  obtain ⟨_, metas, _, -, -, went⟩ := Script.comesTo_bind ran
  cases metas with
  | error e => cases (Script.comesTo_pure went).2
  | ok metas =>
    obtain ⟨_, plain, _, -, -, ended⟩ := Script.comesTo_bind went
    cases plain with
    | error e => cases (Script.comesTo_pure ended).2
    | ok plain =>
      obtain rfl := Except.ok.inj (Script.comesTo_pure ended).2
      intro entry listed
      obtain ⟨key, asked, known⟩ := List.mem_filterMap.mp listed
      obtain ⟨item, -, rfl⟩ := Option.map_eq_some_iff.mp known
      exact asked

theorem values_of_writeValues {withRev : Bool} {found : List (String × Item)} {bytes : Bytes}
    (ran : (writeValues withRev found).ComesTo trace bytes) :
    bytes = Wire.values found withRev := by
  induction found generalizing trace bytes with
  | nil => exact (Script.comesTo_pure ran).2
  | cons entry rest ih =>
    obtain ⟨_, first, _, -, one, went⟩ := Script.comesTo_bind ran
    obtain ⟨_, others, _, -, more, ended⟩ := Script.comesTo_bind went
    obtain ⟨-, rfl⟩ := Script.comesTo_pure ended
    obtain ⟨-, rfl⟩ := Script.comesTo_pure (Script.comesTo_holding one)
    rw [ih more, Wire.values, Wire.values, List.flatMap_cons, List.append_assoc]

theorem replies_reply {frame : Frame} {bytes : Bytes} (ran : (s.reply frame).ComesTo trace bytes)
    (goes_on : frame.goesOn = true)
    (words : ∀ keys withRev, frame = .request (.get keys withRev) →
      ∀ key ∈ keys, Text.IsWord key) : Replies frame bytes := by
  cases frame with
  | eof | cut => cases goes_on
  | unknown =>
    obtain ⟨-, rfl⟩ := Script.comesTo_pure ran
    exact replies_one rfl isReply_error nofun
  | rejected why =>
    obtain ⟨-, rfl⟩ := Script.comesTo_pure ran
    exact replies_rejected why
  | request r =>
    cases r with
    | quit => cases goes_on
    | version =>
      obtain ⟨-, rfl⟩ := Script.comesTo_pure ran
      exact replies_one rfl isReply_version nofun
    | get keys withRev =>
      obtain ⟨_, found, _, -, looked, ended⟩ := Script.comesTo_bind ran
      cases found with
      | error e =>
        obtain ⟨-, rfl⟩ := Script.comesTo_pure ended
        exact replies_one rfl (isReply_of_listed (by decide)) nofun
      | ok found =>
        obtain rfl := values_of_writeValues ended
        refine replies_one rfl (.values fun entry listed => ?_) nofun
        exact words keys withRev rfl _ (keys_lookup looked entry listed)
    | set key item noreply =>
      obtain ⟨_, text, _, -, stored, ended⟩ := Script.comesTo_bind ran
      obtain ⟨-, rfl⟩ := Script.comesTo_pure ended
      exact replies_status rfl (listed_of_storeItem stored)
    | delete key noreply =>
      obtain ⟨_, text, _, -, deleted, ended⟩ := Script.comesTo_bind ran
      obtain ⟨-, rfl⟩ := Script.comesTo_pure ended
      exact replies_status rfl (listed_of_deleteKey deleted)

theorem answers_run {bytes : Bytes} {replies : List Bytes}
    (ran : (s.run bytes).ComesTo trace replies) :
    List.Forall₂ (Answers s.limits.bodyMax) (commands s.limits.bodyMax bytes) replies := by
  have each (cs : List (List String × Frame))
      (read : ∀ c ∈ cs, Reads s.limits.bodyMax c.1 c.2 ∧ c.2.goesOn = true) :
      ∀ {trace : List Mark} {replies : List Bytes},
        (s.replies (cs.map (·.2))).ComesTo trace replies →
          List.Forall₂ (Answers s.limits.bodyMax) cs replies := by
    induction cs with
    | nil =>
      intro trace replies ran
      obtain ⟨-, rfl⟩ := Script.comesTo_pure ran
      exact .nil
    | cons c cs ih =>
      intro trace replies ran
      obtain ⟨⟨made, goes_on⟩, others⟩ := List.forall_mem_cons.mp read
      obtain ⟨_, first, _, -, one, went⟩ := Script.comesTo_bind ran
      obtain ⟨_, rest, _, -, more, ended⟩ := Script.comesTo_bind went
      obtain ⟨-, rfl⟩ := Script.comesTo_pure ended
      refine .cons (answers_of_replies made goes_on ?_) (ih others more)
      refine replies_reply one goes_on fun keys withRev same => ?_
      rw [same] at made
      exact isWord_of_reads made
  rw [run, ← frames_commands] at ran
  exact each _ (fun c => reads_of_mem_commands) ran

end Proxy.Session

/-- On a connection to a node or to the proxy, every command that is read is answered, in order and
once. One that asks for silence is kept silent about, whatever comes of the request. The exception is
a set whose data block is refused: it makes no request, and the error line is sent all the same. -/
theorem answered_in_order (limits : Config.Limits) (bytes : Bytes) :
    (commands limits.bodyMax bytes).map (·.2) = answered (frames limits.bodyMax bytes) ∧
    (∀ now store, List.Forall₂ (Answers limits.bodyMax) (commands limits.bodyMax bytes)
      (Node.session limits now bytes store).1) ∧
    ∀ hasNew trace replies, (Proxy.Session.run ⟨limits, hasNew⟩ bytes).ComesTo trace replies →
      List.Forall₂ (Answers limits.bodyMax) (commands limits.bodyMax bytes) replies :=
  ⟨frames_commands .., fun now => Node.answers_session limits now bytes, fun _ _ _ => Proxy.Session.answers_run⟩

/-- A set that asks for silence and has a tombstone's revision. -/
def quietTombstone : Bytes :=
  line "set k 0 -5 1 noreply" ++ ([97] ++ Bytes.crlf)

theorem commands_quietTombstone : commands 1024 quietTombstone =
    [(["set", "k", "0", "-5", "1", "noreply"],
      .rejected (.protocol "negative revision -5"))] := by
  have words : ∀ w ∈ ["set", "k", "0", "-5", "1", "noreply"], Text.IsWord w := by
    intro w listed
    refine (@Key.isWord_of_validate 250 w ?_).1
    revert w
    decide
  have said : Text.splitWords (Text.Utf8.decodeLossy
      ((Text.Utf8.encode "set k 0 -5 1 noreply" ++ [Bytes.cr]) ++ [Bytes.lf])) =
        ["set", "k", "0", "-5", "1", "noreply"] := by
    rw [List.append_assoc]
    exact (congrArg Text.splitWords (decodeLossy_line "set k 0 -5 1 noreply")).trans
      (splitWords_line words)
  have announced : Announces 1024 (Text.Utf8.encode "set k 0 -5 1 noreply" ++ [Bytes.cr])
      ⟨"k", 0, .clamp (-5), 1, true⟩ :=
    ⟨by decide, by decide, ⟨_, said, rfl⟩, by decide⟩
  have bytes : quietTombstone = (Text.Utf8.encode "set k 0 -5 1 noreply" ++ [Bytes.cr]) ++
      Bytes.lf :: (([97] ++ Bytes.crlf) ++ []) := by
    rw [quietTombstone, line]
    simp [Bytes.crlf]
  have whole : ([97] ++ Bytes.crlf).length = 1 + 2 := rfl
  have read := readFrame_announced true [] announced (by decide) whole
  rw [bytes, commands_cons (by simp) read rfl, nextWords_line _ announced.whole announced.fits said,
    commands, dif_pos rfl]
  rfl

/-- The client of such a set is sent an error line that it does not wait for. -/
theorem answered_in_order_refused :
    let limits : Config.Limits := ⟨250, 1024⟩
    AsksSilence ["set", "k", "0", "-5", "1", "noreply"] ∧
      commands limits.bodyMax quietTombstone = [(["set", "k", "0", "-5", "1", "noreply"],
        .rejected (.protocol "negative revision -5"))] ∧
      (Node.session limits 0 quietTombstone Store.empty).1 =
        [line "CLIENT_ERROR bad command line format"] ∧
      ((Proxy.Session.run ⟨limits, true⟩ quietTombstone).run Dispatch.Memory.host
        (Dispatch.Memory.start ⟨.brw, []⟩ 0)).1 =
          [line "CLIENT_ERROR bad command line format"] := by
  intro limits
  have quiet : AsksSilence ["set", "k", "0", "-5", "1", "noreply"] :=
    .set (by decide) (by decide) (by decide)
  have error_line {replies : List Bytes} (answered : List.Forall₂ (Answers limits.bodyMax)
      (commands limits.bodyMax quietTombstone) replies) :
      replies = [line "CLIENT_ERROR bad command line format"] := by
    rw [show limits.bodyMax = 1024 from rfl, commands_quietTombstone] at answered
    cases answered with
    | cons first none =>
      cases none
      cases first with
      | refused => rfl
      | one loud => exact absurd quiet loud
  obtain ⟨-, node, proxy⟩ := answered_in_order limits quietTombstone
  exact ⟨quiet, commands_quietTombstone, error_line (node 0 Store.empty),
    error_line (proxy true _ _ (Dispatch.Script.comesTo_run ..))⟩

end QuorumKv
