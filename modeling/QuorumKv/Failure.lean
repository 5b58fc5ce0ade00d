import QuorumKv.Text.Digits

/-! Everything that can go wrong, as causes. The text for people, the line for a wire client and the
status for a web client are three functions of the cause. -/
namespace QuorumKv

inductive Failure where
  | io (text : String)
  | connection (text : String)
  | timeout (text : String)
  | protocol (text : String)
  /-- A node answered, and its answer was a refusal. -/
  | node (name message : String)
  | partialWrite (acks needed : Nat)
  | readQuorum (responses needed : Nat)
  /-- The write of this key came with a revision older than what is stored. -/
  | stale (key : String)
  /-- Neither a main nor a backup of the bucket can be reached. -/
  | noNode (bucket : Nat)
  | badKey (text : String)
  | badChunk
  | tooLarge (size max : Nat)
  | http (text : String)
  /-- The answer of a web server is not of the form that was asked for. -/
  | badAnswer
  /-- No request can be made for a URL. -/
  | badUrl
  | disabled (what : String)
  | config (text : String)
  /-- A configuration document cannot be read, or does not have the expected shape. -/
  | badDocument
  deriving DecidableEq, Repr

namespace Failure

def message : Failure → String
  | io text => "I/O error: " ++ text
  | connection text => "Connection failed: " ++ text
  | timeout text => "Operation timeout: " ++ text
  | protocol text => "Protocol error: " ++ text
  | node name message => s!"Node error from {name}: {message}"
  | partialWrite acks needed => s!"Write failed: {acks} of {needed} acknowledgements"
  | readQuorum responses needed => s!"Read quorum failed: {responses} of {needed} responses"
  | stale key => "Version conflict: stale revision for key " ++ key
  | noNode bucket => s!"No reachable node for bucket {bucket}"
  | badKey text => "Invalid key: " ++ text
  | badChunk => "Bad data chunk"
  | tooLarge size max => s!"Object too large: {size} bytes (max {max})"
  | http text => "HTTP error: " ++ text
  | badAnswer => "HTTP error: error decoding response body"
  | badUrl => "HTTP error: builder error"
  | disabled what => "Backend disabled: " ++ what
  | config text => "Invalid configuration: " ++ text
  | badDocument => "Invalid configuration: *"

/-- Whether the failure says that the node cannot be reached, which is what opens a circuit. -/
def isConnection : Failure → Bool
  | io _ | connection _ | timeout _ => true
  | _ => false

def wireReply : Failure → String
  | stale _ => "EXISTS"
  | badChunk => "CLIENT_ERROR bad data chunk"
  | protocol _ => "CLIENT_ERROR bad command line format"
  | tooLarge _ _ => "SERVER_ERROR object too large for cache"
  | readQuorum _ _ => "SERVER_ERROR read failed"
  | _ => "SERVER_ERROR write failed"

def httpStatus : Failure → Nat
  | badKey _ | config _ | badDocument | badChunk | protocol _ => 400
  | stale _ => 409
  | tooLarge _ _ => 413
  | timeout _ => 408
  | partialWrite _ _ | readQuorum _ _ | noNode _ => 503
  | _ => 502

end Failure

end QuorumKv
