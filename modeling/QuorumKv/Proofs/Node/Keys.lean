import QuorumKv.Node.Web
import QuorumKv.Proofs.Store.Change
import QuorumKv.Proofs.Wire.Keys

/-! The two ways to the store of a node: lines on a connection, and web requests. Both set accepted
keys only, so no others are ever stored, and on a line an accepted key is the very bytes that were
sent for it. -/
namespace QuorumKv

/-- What a store keeps whichever handler is run, and without one, it keeps at every request. -/
theorem Web.serve_keeps {σ : Type} {P : σ → Prop} {resources : List (Resource σ)}
    {request : Request} {s : σ} (held : P s)
    (each : ∀ r ∈ resources, ∀ entry ∈ r.handlers, ∀ texts target,
      P (entry.2 texts request target s).2) :
    P (serve resources request s).2 := by
  unfold serve
  dsimp only
  split
  · exact held
  · rename_i resource found known
    split
    · exact held
    · rename_i handle picked
      obtain ⟨r, listed, captured⟩ := List.exists_of_findSome?_eq_some known
      obtain ⟨_, -, same⟩ := Option.map_eq_some_iff.mp captured
      obtain ⟨rfl, -⟩ := Prod.mk.inj same
      obtain ⟨entry, named, rfl⟩ := Option.map_eq_some_iff.mp picked
      cases found.mapM segmentText? with
      | none => exact held
      | some texts => exact each r listed entry (List.mem_of_find?_eq_some named) texts _

namespace Node

variable {limits : Config.Limits} {s t : Store}

/-- What becomes of a store at a front end: an accepted key is set, any key is deleted, or nothing
happens. -/
inductive Admits (limits : Config.Limits) (s : Store) : Store → Prop
  | unchanged : Admits limits s s
  | set {key : String} (valid : Key.validate limits.maxKeyLength key = .ok ()) (item : Item)
      (now : Nat) : Admits limits s (s.set key item now).2
  | delete (key : String) (now : Nat) : Admits limits s (s.delete key now).2

theorem Admits.mem_keys {key : String} (admits : Admits limits s t)
    (stored : key ∈ t.records.keys) :
    key ∈ s.records.keys ∨ Key.validate limits.maxKeyLength key = .ok () := by
  cases admits with
  | unchanged => exact .inl stored
  | @set k valid item now =>
    refine (Store.mem_keys_of_effect (s.apply_effect (.set k item now)) stored).imp_right ?_
    rintro ⟨_, _, same⟩
    obtain ⟨rfl, -⟩ := Store.Change.set.inj same
    exact valid
  | delete k now =>
    refine (Store.mem_keys_of_effect (s.apply_effect (.delete k now)) stored).imp_right ?_
    rintro ⟨_, _, same⟩
    cases same

theorem admits_reply (now : Nat) (frame : Wire.Frame) :
    Admits limits s (reply limits now frame s).2 := by
  obtain same | ⟨key, item, _, -, valid, stored⟩ | ⟨key, _, -, deleted⟩ :=
    reply_cases limits now frame s
  · rw [same]
    exact .unchanged
  · rw [stored]
    exact .set valid item now
  · rw [deleted]
    exact .delete key now

theorem admits_atKey {serve : String → Web.Request → Store → Web.Response × Store}
    {request : Web.Request}
    (each : ∀ key, Key.validate limits.maxKeyLength key = .ok () →
      Admits limits s (serve key request s).2) (texts : List String) (target : Web.Target) :
    Admits limits s (atKey limits serve texts request target s).2 := by
  unfold atKey
  dsimp only
  split
  · exact .unchanged
  · exact each _ ‹_›

theorem admits_storeValue (now : Nat) {key : String} (request : Web.Request)
    (valid : Key.validate limits.maxKeyLength key = .ok ()) :
    Admits limits s (storeValue now key request s).2 := by
  unfold storeValue
  split
  · exact .unchanged
  · rename_i item _
    have set : Admits limits s (s.set key item now).2 := .set valid item now
    split <;> rename_i outcome
    · rwa [outcome] at set
    · rwa [outcome] at set

theorem admits_deleteValue (now : Nat) (key : String) (request : Web.Request) :
    Admits limits s (deleteValue now key request s).2 := by
  have delete : Admits limits s (s.delete key now).2 := .delete key now
  unfold deleteValue
  split <;> rename_i outcome
  · rwa [outcome] at delete
  · rwa [outcome] at delete

theorem admits_respond (now : Nat) (request : Web.Request) :
    Admits limits s (respond limits now request s).2 := by
  apply Web.serve_keeps .unchanged
  intro r listed entry among texts target
  simp only [resources, List.mem_cons, List.not_mem_nil, or_false] at listed
  obtain rfl | rfl | rfl := listed
  · simp only [List.mem_cons, List.not_mem_nil, or_false] at among
    obtain rfl | rfl | rfl := among
    · refine admits_atKey (fun key _ => ?_) texts target
      unfold readValue
      split <;> exact .unchanged
    · dsimp only [limitBody]
      split
      · exact .unchanged
      · exact admits_atKey (fun key valid => admits_storeValue now request valid) texts target
    · exact admits_atKey (fun key _ => admits_deleteValue now key request) texts target
  · obtain rfl := List.mem_singleton.mp among
    refine admits_atKey (fun key _ => ?_) texts target
    unfold readMeta
    split <;> exact .unchanged
  · obtain rfl := List.mem_singleton.mp among
    exact .unchanged

/-- What reaches a node, at a time in seconds: a frame on one of its connections, or a web
request. -/
inductive Arrival where
  | frame (frame : Wire.Frame) (now : Nat)
  | web (request : Web.Request) (now : Nat)

def Arrival.serve (limits : Config.Limits) (s : Store) : Arrival → Store
  | .frame sent now => (reply limits now sent s).2
  | .web sent now => (respond limits now sent s).2

/-- The store after whatever reached the node, in this order. -/
def storeAfter (limits : Config.Limits) (s : Store) (arrivals : List Arrival) : Store :=
  arrivals.foldl (Arrival.serve limits) s

/-- A session alone is the run of its frames. -/
theorem storeAfter_session (limits : Config.Limits) (now : Nat) (bytes : Bytes) (s : Store) :
    storeAfter limits s
        ((Wire.answered (Wire.frames limits.bodyMax bytes)).map fun frame => .frame frame now) =
      (session limits now bytes s).2 := by
  unfold session
  generalize Wire.answered (Wire.frames limits.bodyMax bytes) = frames
  induction frames generalizing s with
  | nil => rfl
  | cons frame rest ih => exact ih (reply limits now frame s).2

theorem admits_serve (arrival : Arrival) : Admits limits s (arrival.serve limits s) := by
  cases arrival with
  | frame frame now => exact admits_reply now frame
  | web request now => exact admits_respond now request

theorem mem_keys_storeAfter {arrivals : List Arrival} {key : String}
    (stored : key ∈ (storeAfter limits s arrivals).records.keys) :
    key ∈ s.records.keys ∨ Key.validate limits.maxKeyLength key = .ok () := by
  induction arrivals generalizing s with
  | nil => exact .inl stored
  | cons arrival rest ih =>
    obtain before | valid := ih stored
    · exact (admits_serve arrival).mem_keys before
    · exact .inr valid

/-- Decoding makes no two keys one. The keys of a request are the first arguments of its line, each
decoded by itself, and one that is accepted is the very bytes of its argument. A token that is not
UTF-8 is no accepted key, nor are two tokens the same one. Lines and web requests, in whatever
order, never bring a key into a store that is not accepted. -/
theorem accepted_keys_as_sent :
    (∀ bodyMax ended bytes r rest,
      Wire.readFrame bodyMax ended bytes = some (.request r, rest) →
        ∃ (line : Bytes) (args : List Bytes), Wire.CommandLine bytes line args ∧
          ∀ (i : Nat) (key : String), r.keys[i]? = some key → ∃ token, args[i]? = some token ∧
            key = Text.Utf8.decodeLossy token ∧
            ∀ maxLength, Key.validate maxLength key = .ok () → token = Text.Utf8.encode key) ∧
    (∀ maxLength token, Key.validate maxLength (Text.Utf8.decodeLossy token) = .ok () →
      Text.Utf8.decode? token = some (Text.Utf8.decodeLossy token) ∧
      ∀ other, Text.Utf8.decodeLossy other = Text.Utf8.decodeLossy token → other = token) ∧
    ∀ limits s arrivals, ∀ key ∈ (storeAfter limits s arrivals).records.keys,
      key ∈ s.records.keys ∨ Key.validate limits.maxKeyLength key = .ok () := by
  refine ⟨?_, ?_, fun limits s arrivals key => mem_keys_storeAfter⟩
  · intro bodyMax ended bytes r rest read
    obtain ⟨line, args, sent, more, parts⟩ := Wire.exists_commandLine read
    refine ⟨line, args, sent, fun i key here => ?_⟩
    have there : (args.map Text.Utf8.decodeLossy)[i]? = some key := by
      rw [← parts, List.getElem?_append_left (List.getElem?_eq_some_iff.mp here).1, here]
    rw [List.getElem?_map] at there
    obtain ⟨token, placed, rfl⟩ := Option.map_eq_some_iff.mp there
    exact ⟨token, placed, rfl, fun _ valid => (Key.encode_of_validate valid).symm⟩
  · exact fun maxLength token valid =>
      ⟨Key.decode?_of_validate valid, fun other => Key.token_unique valid⟩

/-- Behind a blank line, a get whose first key stops within a character, right before a no-break
space. -/
def cutKeyLine : Bytes :=
  Bytes.crlf ++ Text.Utf8.encode "get a" ++ [0xE2, 0x80] ++ Text.Utf8.encode "\u00A0é k\r\n"

/-- The key that stops short is refused, and the one behind it is what was sent. The same keys in
a set and in a web request leave one key in the store. -/
theorem accepted_keys_as_sent_cut :
    let arrivals := [Arrival.frame (.request (.set "a\uFFFD" ⟨0, [], .auto⟩ false)) 0,
      .web ⟨"PUT", "/kv/%C3%A9", [], []⟩ 0]
    let left := storeAfter ⟨250, 1024⟩ .empty arrivals
    Wire.readFrame 1024 false cutKeyLine =
        some (.request (.get ["a\uFFFD", "é", "k"] false), []) ∧
      Key.validate 250 (Text.Utf8.decodeLossy [97, 0xE2, 0x80]) ≠ .ok () ∧
      Key.validate 250 "é" = .ok () ∧
      (∃ (line : Bytes) (args : List Bytes), Wire.CommandLine cutKeyLine line args ∧
        args[1]? = some [0xC3, 0xA9]) ∧
      Text.Utf8.decode? [0xC3, 0xA9] = some "é" ∧
      left.records.keys = ["é"] ∧
      ("é" ∈ Store.empty.records.keys ∨ Key.validate 250 "é" = .ok ()) := by
  intro arrivals left
  obtain ⟨as_sent, whole, accepted⟩ := accepted_keys_as_sent
  have read : Wire.readFrame 1024 false cutKeyLine =
      some (.request (.get ["a\uFFFD", "é", "k"] false), []) := by decide +kernel
  have valid : Key.validate 250 "é" = .ok () := by decide +kernel
  have decoded : Text.Utf8.decodeLossy [0xC3, 0xA9] = "é" := by decide +kernel
  have keys : left.records.keys = ["é"] := by decide +kernel
  refine ⟨read, by decide +kernel, valid, ?_, ?_, keys, ?_⟩
  · obtain ⟨line, args, sent, named⟩ := as_sent _ _ _ _ _ read
    obtain ⟨token, placed, -, same⟩ := named 1 "é" rfl
    exact ⟨line, args, sent, placed.trans (congrArg some (same 250 valid))⟩
  · rw [(whole 250 [0xC3, 0xA9] (decoded ▸ valid)).1, decoded]
  · exact accepted _ _ arrivals "é" (keys ▸ List.mem_singleton_self _)

end Node

end QuorumKv
