import QuorumKv.Proofs.Wire.Framing

/-! The commands of a stream: each frame with the words of the line that it was read from. The words
tell whether the client asked for a reply, also where the frame does not. -/
namespace QuorumKv

theorem Text.int64?_bounded {text : String} {i : Int} (read : int64? text = some i) :
    ∃ rev, Revision.ofInt? i = some rev := by
  have bounded : Revision.least ≤ i ∧ i ≤ Revision.greatest := by
    unfold int64? signed? at read
    split at read
    · split at read
      · split at read
        · obtain rfl := Option.some.inj read
          simp only [Revision.least, Revision.greatest, bound63] at *
          omega
        · cases read
      · cases read
    · obtain ⟨n, unsigned, rfl⟩ := Option.map_eq_some_iff.mp read
      have small : n < bound63 := by
        unfold unsigned? at unsigned
        dsimp only at unsigned
        split at unsigned
        · split at unsigned
          · obtain rfl := Option.some.inj unsigned
            assumption
          · cases unsigned
        · cases unsigned
      simp only [Revision.least, Revision.greatest, bound63, Int.ofNat_eq_natCast] at *
      omega
  exact ⟨_, dif_pos bounded⟩

theorem Text.isWord_splitWords {text w : String} (listed : w ∈ splitWords text) : IsWord w := by
  have each (cs : List Char) : ∀ word ∈ words cs, word ≠ [] ∧ ∀ c ∈ word, isBlank c = false := by
    fun_induction words cs with
    | case1 => exact nofun
    | case2 c cs blank ih => exact ih
    | case3 c cs solid ih =>
      rw [List.forall_mem_cons]
      refine ⟨⟨List.cons_ne_nil _ _, ?_⟩, ih⟩
      rw [List.forall_mem_cons]
      refine ⟨by simpa using solid, fun d taken => ?_⟩
      simpa using List.mem_takeWhile_imp taken
  obtain ⟨word, known, rfl⟩ := List.mem_map.mp listed
  obtain ⟨filled, whole⟩ := each _ word known
  refine ⟨?_, by simpa using whole⟩
  rw [Ne, ← String.toList_inj, String.toList_ofList]
  exact filled

namespace Wire

/-- The words of the next command line, behind blank lines. There are none where the stream is over
and where a line is too long. -/
def nextWords (bytes : Bytes) : List String :=
  if _ : bytes = [] then []
  else if !endsLine (splitLine maxLine bytes).1 then []
  else
    match Text.splitWords (Text.Utf8.decodeLossy (splitLine maxLine bytes).1) with
    | [] => nextWords (splitLine maxLine bytes).2
    | command :: args => command :: args
termination_by bytes.length
decreasing_by exact length_splitLine_lt bytes (by assumption)

/-- What a frame is by the words of its line. -/
inductive Reads (bodyMax : Nat) : List String → Frame → Prop
  | ended : Reads bodyMax [] .eof
  | long : Reads bodyMax [] (.rejected (.protocol "line too long"))
  | command {command : String} {args : List String} {left rest : Bytes} {frame : Frame}
      (words : ∀ w ∈ command :: args, Text.IsWord w)
      (read : readCommand bodyMax true command args left = some (frame, rest)) :
      Reads bodyMax (command :: args) frame

theorem reads_readFrame {bodyMax : Nat} {ended : Bool} (last : ended = true) {bytes rest : Bytes}
    {frame : Frame} (read : readFrame bodyMax ended bytes = some (frame, rest)) :
    Reads bodyMax (nextWords bytes) frame := by
  fun_induction readFrame bodyMax ended bytes generalizing frame rest with
  | case1 =>
    obtain ⟨rfl, -⟩ := Prod.mk.inj (Option.some.inj read)
    rw [nextWords, dif_pos rfl]
    exact .ended
  | case2 => cases read
  | case3 => cases read
  | case4 bytes filled line closed =>
    rename_i cut
    obtain ⟨rfl, -⟩ := Prod.mk.inj (Option.some.inj read)
    rw [nextWords, dif_neg filled, if_pos cut]
    exact .long
  | case5 bytes filled line closed whole blank =>
    rename_i ih
    rw [nextWords, dif_neg filled, if_neg whole, blank]
    exact ih read
  | case6 bytes filled line closed whole command args =>
    rename_i said
    subst last
    rw [nextWords, dif_neg filled, if_neg whole, said]
    exact .command (fun w listed => Text.isWord_splitWords (said ▸ listed)) read

/-- A set line that can be read, or a delete line, with `noreply` behind its arguments. -/
inductive AsksSilence : List String → Prop
  | set {key flags rev size : String} {more : List String}
      (flags_read : (Text.uint32? flags).isSome = true)
      (rev_read : (Text.int64? rev).isSome = true)
      (size_read : (Text.uint64? size).isSome = true) :
      AsksSilence ("set" :: key :: flags :: rev :: size :: "noreply" :: more)
  | delete {key : String} {more : List String} : AsksSilence ("delete" :: key :: "noreply" :: more)

theorem asksSilence_set_iff {args : List String} :
    AsksSilence ("set" :: args) ↔ ∃ s, setLine? args = some s ∧ s.noreply = true := by
  constructor
  · intro quiet
    generalize same : "set" :: args = words at quiet
    cases quiet with
    | delete => exact absurd (List.cons.inj same).1 (by decide)
    | @set key _ _ _ _ flags_read rev_read size_read =>
      obtain rfl := (List.cons.inj same).2
      obtain ⟨flags, flags_read⟩ := Option.isSome_iff_exists.mp flags_read
      obtain ⟨i, rev_read⟩ := Option.isSome_iff_exists.mp rev_read
      obtain ⟨size, size_read⟩ := Option.isSome_iff_exists.mp size_read
      obtain ⟨rev, bounded⟩ := Text.int64?_bounded rev_read
      refine ⟨⟨key, flags, rev, size, true⟩, ?_, rfl⟩
      simp [setLine?, flags_read, rev_read, size_read, bounded]
  · rintro ⟨s, read, quiet⟩
    unfold setLine? at read
    split at read
    · rename_i key flags rev size rest
      simp only [Option.bind_eq_bind, Option.bind_eq_some_iff] at read
      obtain ⟨f, flags_read, r, ⟨i, rev_read, -⟩, n, size_read, same⟩ := read
      obtain rfl := Option.some.inj same
      obtain ⟨more, rfl⟩ := List.head?_eq_some_iff.mp (beq_iff_eq.mp quiet)
      exact .set (by rw [flags_read]; rfl) (by rw [rev_read]; rfl) (by rw [size_read]; rfl)
    · cases read

theorem asksSilence_delete_iff {args : List String} :
    AsksSilence ("delete" :: args) ↔ ∃ key rest, args = key :: rest ∧ rest.head? = some "noreply" := by
  constructor
  · intro quiet
    generalize same : "delete" :: args = words at quiet
    cases quiet with
    | set => exact absurd (List.cons.inj same).1 (by decide)
    | delete => exact ⟨_, _, (List.cons.inj same).2, rfl⟩
  · rintro ⟨key, rest, rfl, first⟩
    obtain ⟨more, rfl⟩ := List.head?_eq_some_iff.mp first
    exact .delete

/-- Why the data block of a set line is refused. -/
inductive IsRefusal (bodyMax : Nat) (s : SetLine) : Failure → Prop
  | unread (large : 4 * bodyMax < s.size) :
      IsRefusal bodyMax s (.protocol s!"declared size {s.size} is not acceptable")
  | tooLarge (large : bodyMax < s.size) : IsRefusal bodyMax s (.tooLarge s.size bodyMax)
  | badChunk (fits : s.size ≤ bodyMax) : IsRefusal bodyMax s .badChunk
  | negative (fits : s.size ≤ bodyMax) (tombstone : s.rev.isTombstone = true) :
      IsRefusal bodyMax s (.protocol s!"negative revision {s.rev.val}")

/-- What comes of a set line: its data block is refused, or cut off by the end of the stream, or
makes a request. -/
inductive SetLine.Yields (bodyMax : Nat) (s : SetLine) : Frame → Prop
  | refused {why : Failure} (refusal : IsRefusal bodyMax s why) : s.Yields bodyMax (.rejected why)
  | cut : s.Yields bodyMax .cut
  | request {value : Bytes} (fits : s.size ≤ bodyMax) (live : s.rev.isTombstone = false) :
      s.Yields bodyMax (.request (.set s.key ⟨s.flags, value, s.rev⟩ s.noreply))

theorem SetLine.yields_readBlock {bodyMax : Nat} {s : SetLine} {ended : Bool} {bytes rest : Bytes}
    {frame : Frame} (read : s.readBlock bodyMax ended bytes = some (frame, rest)) :
    s.Yields bodyMax frame := by
  unfold readBlock at read
  split at read
  · rename_i large
    obtain ⟨rfl, -⟩ := Prod.mk.inj (Option.some.inj read)
    exact .refused (.unread large)
  · split at read
    · rename_i large
      split at read
      · obtain ⟨rfl, -⟩ := Prod.mk.inj (Option.some.inj read)
        exact .refused (.tooLarge large)
      · cases read
    · rename_i small
      have fits : s.size ≤ bodyMax := Nat.le_of_not_lt small
      dsimp only at read
      split at read
      · obtain ⟨rfl, -⟩ := Prod.mk.inj (Option.some.inj read)
        unfold accept
        split
        · exact .refused (.badChunk fits)
        · split
          · rename_i tombstone
            exact .refused (.negative fits tombstone)
          · rename_i live
            exact .request fits (eq_false_of_ne_true live)
      · split at read
        · obtain ⟨rfl, -⟩ := Prod.mk.inj (Option.some.inj read)
          exact .cut
        · cases read

/-- What may come of the words of a line. -/
inductive Yields (bodyMax : Nat) : String → List String → Frame → Prop
  | set {args : List String} {s : SetLine} {frame : Frame} (parsed : setLine? args = some s)
      (block : s.Yields bodyMax frame) : Yields bodyMax "set" args frame
  | get (command : String) (keys : List String) (withRev : Bool) :
      Yields bodyMax command keys (.request (.get keys withRev))
  | delete (key : String) (rest : List String) :
      Yields bodyMax "delete" (key :: rest)
        (.request (.delete key (rest.head? == some "noreply")))
  | version (args : List String) : Yields bodyMax "version" args (.request .version)
  | quit (args : List String) : Yields bodyMax "quit" args (.request .quit)
  | rejected (command : String) (args : List String) (why : Failure) :
      Yields bodyMax command args (.rejected why)
  | unknown (command : String) (args : List String) : Yields bodyMax command args .unknown

theorem yields_getCommand (bodyMax : Nat) (command : String) (withRev : Bool)
    (keys : List String) : Yields bodyMax command keys (getCommand withRev keys) := by
  unfold getCommand
  split
  · exact .rejected ..
  · exact .get ..

theorem yields_deleteCommand (bodyMax : Nat) (args : List String) :
    Yields bodyMax "delete" args (deleteCommand args) := by
  cases args with
  | nil => exact .rejected ..
  | cons key rest => exact .delete key rest

theorem yields_readCommand {bodyMax : Nat} {ended : Bool} {command : String} {args : List String}
    {left rest : Bytes} {frame : Frame}
    (read : readCommand bodyMax ended command args left = some (frame, rest)) :
    Yields bodyMax command args frame := by
  have taken {made : Frame} (here : some (made, left) = some (frame, rest)) : made = frame :=
    (Prod.mk.inj (Option.some.inj here)).1
  unfold readCommand at read
  split at read
  · rename_i set
    split at read
    · rename_i s parsed
      exact set ▸ .set parsed (SetLine.yields_readBlock read)
    · exact taken read ▸ .rejected ..
  · split at read
    · exact taken read ▸ yields_getCommand ..
    · split at read
      · exact taken read ▸ yields_getCommand ..
      · split at read
        · rename_i delete
          exact taken read ▸ delete ▸ yields_deleteCommand ..
        · split at read
          · rename_i version
            exact taken read ▸ version ▸ .version ..
          · split at read
            · rename_i quit
              exact taken read ▸ quit ▸ .quit ..
            · exact taken read ▸ .unknown ..

/-- The keys that a request names. -/
def Request.keys : Request → List String
  | .get keys _ => keys
  | .set key _ _ | .delete key _ => [key]
  | .version | .quit => []

theorem key_of_setLine? {args : List String} {s : SetLine} (read : setLine? args = some s) :
    [s.key] <+: args := by
  unfold setLine? at read
  split at read
  · rename_i key flags rev size rest
    simp only [Option.bind_eq_bind, Option.bind_eq_some_iff] at read
    obtain ⟨_, -, _, -, _, -, same⟩ := read
    obtain rfl := Option.some.inj same
    exact List.prefix_append [key] _
  · cases read

/-- A request names its keys with the first arguments of its line. -/
theorem keys_of_readCommand {bodyMax : Nat} {ended : Bool} {command : String} {args : List String}
    {left rest : Bytes} {r : Request}
    (read : readCommand bodyMax ended command args left = some (.request r, rest)) :
    r.keys <+: args := by
  cases yields_readCommand read with
  | set parsed block =>
    cases block with
    | request => exact key_of_setLine? parsed
  | get => exact List.prefix_refl args
  | delete key more => exact List.prefix_append [key] more
  | version => exact List.nil_prefix
  | quit => exact List.nil_prefix

/-- A request that asks for no reply. -/
def Frame.isSilent : Frame → Bool
  | request (.set _ _ noreply) | request (.delete _ noreply) => noreply
  | request (.get _ _) | request .version | request .quit => false
  | rejected _ | unknown | eof | cut => false

section Silence

variable {bodyMax : Nat} {words : List String} {frame : Frame}

/-- A line that asks for no reply makes a request that does, unless its data block is refused. -/
theorem silent_of_reads (made : Reads bodyMax words frame) (quiet : AsksSilence words)
    (complete : frame ≠ .cut) :
    (frame.isSilent = true ∧ ∃ r, frame = .request r) ∨
      ∃ args s why, words = "set" :: args ∧ setLine? args = some s ∧ IsRefusal bodyMax s why ∧
        frame = .rejected why := by
  cases made with
  | ended => cases quiet
  | long => cases quiet
  | @command command args left rest _ whole read =>
    by_cases set : command = "set"
    · subst set
      obtain ⟨s, parsed, silent⟩ := asksSilence_set_iff.mp quiet
      rw [readCommand, if_pos rfl, parsed] at read
      cases SetLine.yields_readBlock read with
      | refused refusal => exact .inr ⟨args, s, _, rfl, parsed, refusal, rfl⟩
      | cut => exact absurd rfl complete
      | request fits live => exact .inl ⟨silent, _, rfl⟩
    · have delete : command = "delete" := by
        generalize same : command :: args = words at quiet
        cases quiet with
        | set => exact absurd (List.cons.inj same).1 set
        | delete => exact (List.cons.inj same).1
      subst delete
      obtain ⟨key, more, rfl, first⟩ := asksSilence_delete_iff.mp quiet
      obtain ⟨rfl, -⟩ := Prod.mk.inj (Option.some.inj read)
      exact .inl ⟨beq_iff_eq.mpr first, _, rfl⟩

/-- A line that does not ask for silence makes no request that does. -/
theorem loud_of_reads (made : Reads bodyMax words frame) (loud : ¬AsksSilence words) :
    frame.isSilent = false := by
  cases made with
  | ended => rfl
  | long => rfl
  | @command command args left rest _ whole read =>
    cases yields_readCommand read with
    | set parsed block =>
      cases block with
      | refused => rfl
      | cut => rfl
      | request =>
        exact eq_false_of_ne_true fun silent => loud (asksSilence_set_iff.mpr ⟨_, parsed, silent⟩)
    | delete key more =>
      exact eq_false_of_ne_true fun silent =>
        loud (asksSilence_delete_iff.mpr ⟨key, more, rfl, beq_iff_eq.mp silent⟩)
    | get => rfl
    | version => rfl
    | quit => rfl
    | rejected => rfl
    | unknown => rfl

/-- Keys that are asked for are words. -/
theorem isWord_of_reads {keys : List String} {withRev : Bool}
    (made : Reads bodyMax words (.request (.get keys withRev))) : ∀ key ∈ keys, Text.IsWord key := by
  cases made with
  | @command command args left rest _ whole read =>
    intro key listed
    have named : keys <+: args := keys_of_readCommand read
    exact whole key (.tail _ (named.subset listed))

end Silence

/-- Whether a session goes on behind a frame. -/
def Frame.goesOn : Frame → Bool
  | eof | cut | request .quit => false
  | request (.get _ _) | request (.set _ _ _) | request (.delete _ _) | request .version => true
  | rejected _ | unknown => true

/-- The frames of a session, each with the words of its line, up to where the client quits or the
stream ends. -/
def commands (bodyMax : Nat) (bytes : Bytes) : List (List String × Frame) :=
  if _ : bytes = [] then []
  else
    match _ : readFrame bodyMax true bytes with
    | none => []
    | some (frame, rest) =>
      if frame.goesOn then (nextWords bytes, frame) :: commands bodyMax rest else []
termination_by bytes.length
decreasing_by exact length_readFrame_lt (by assumption) (by assumption)

theorem commands_cons {bodyMax : Nat} {bytes rest : Bytes} {frame : Frame} (filled : bytes ≠ [])
    (read : readFrame bodyMax true bytes = some (frame, rest)) (goes_on : frame.goesOn = true) :
    commands bodyMax bytes = (nextWords bytes, frame) :: commands bodyMax rest := by
  rw [commands, dif_neg filled]
  split <;> simp_all

theorem nextWords_line {text : Bytes} {command : String} {args : List String} (rest : Bytes)
    (whole : Bytes.lf ∉ text) (fits : text.length < maxLine)
    (said : Text.splitWords (Text.Utf8.decodeLossy (text ++ [Bytes.lf])) = command :: args) :
    nextWords (text ++ Bytes.lf :: rest) = command :: args := by
  have closed : endsLine (text ++ [Bytes.lf]) = true := by simp [endsLine]
  rw [nextWords, dif_neg (by simp), splitLine_lf whole fits]
  simp only [closed, Bool.not_true, Bool.false_eq_true, if_false, said]

theorem answered_cons (frame : Frame) (frames : List Frame) :
    answered (frame :: frames) = if frame.goesOn then frame :: answered frames else [] := by
  cases frame with
  | request r => cases r <;> rfl
  | _ => rfl

/-- The commands of a stream are its frames that are answered. -/
theorem frames_commands (bodyMax : Nat) (bytes : Bytes) :
    (commands bodyMax bytes).map (·.2) = answered (frames bodyMax bytes) := by
  fun_induction commands bodyMax bytes with
  | case1 => rw [frames_nil]; rfl
  | case2 bytes filled stuck =>
    rw [frames, dif_neg filled]
    split <;> simp_all [answered]
  | case3 bytes filled frame rest read goes_on ih =>
    have more : frame ≠ .eof := by rintro rfl; cases goes_on
    have complete : frame ≠ .cut := by rintro rfl; cases goes_on
    rw [frames_cons filled read more complete, answered_cons, if_pos goes_on, List.map_cons, ih]
  | case4 bytes filled frame rest read stops =>
    rw [List.map_nil]
    by_cases more : frame = .eof ∨ frame = .cut
    · rw [frames, dif_neg filled]
      obtain rfl | rfl := more <;> split <;> simp_all [answered]
    · rw [not_or] at more
      rw [frames_cons filled read more.1 more.2, answered_cons, if_neg stops]

theorem reads_of_mem_commands {bodyMax : Nat} {bytes : Bytes} {c : List String × Frame}
    (listed : c ∈ commands bodyMax bytes) :
    Reads bodyMax c.1 c.2 ∧ c.2.goesOn = true := by
  fun_induction commands bodyMax bytes with
  | case1 => cases listed
  | case2 => cases listed
  | case3 bytes filled frame rest read goes_on ih =>
    obtain rfl | later := List.mem_cons.mp listed
    · exact ⟨reads_readFrame rfl read, goes_on⟩
    · exact ih later
  | case4 => cases listed

end Wire

end QuorumKv
