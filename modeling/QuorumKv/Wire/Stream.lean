import QuorumKv.Wire.Request

/-! A whole stream of requests, cut into its frames. Reading does not depend on what is answered,
so a session is its frames and then their replies. -/
namespace QuorumKv.Wire

/-- What is left behind a data block is the end of the stream. -/
theorem readBlock_suffix {s : SetLine} {bodyMax : Nat} {ended : Bool} {bytes rest : Bytes}
    {frame : Frame} (h : s.readBlock bodyMax ended bytes = some (frame, rest)) :
    rest <:+ bytes := by
  unfold SetLine.readBlock at h
  split at h
  · obtain ⟨-, rfl⟩ := Prod.mk.inj (Option.some.inj h)
    exact List.suffix_refl _
  · split at h
    · split at h
      · obtain ⟨-, rfl⟩ := Prod.mk.inj (Option.some.inj h)
        exact List.drop_suffix ..
      · simp at h
    · simp only at h
      split at h
      · obtain ⟨-, rfl⟩ := Prod.mk.inj (Option.some.inj h)
        exact List.drop_suffix ..
      · split at h
        · obtain ⟨-, rfl⟩ := Prod.mk.inj (Option.some.inj h)
          exact List.nil_suffix
        · simp at h

theorem readCommand_suffix {bodyMax : Nat} {ended : Bool} {command : String}
    {args : List String} {bytes rest : Bytes} {frame : Frame}
    (h : readCommand bodyMax ended command args bytes = some (frame, rest)) :
    rest <:+ bytes := by
  unfold readCommand at h
  split at h
  · split at h
    · exact readBlock_suffix h
    · obtain ⟨-, rfl⟩ := Prod.mk.inj (Option.some.inj h)
      exact List.suffix_refl _
  · repeat'
      first
      | split at h
      | (obtain ⟨-, rfl⟩ := Prod.mk.inj (Option.some.inj h); exact List.suffix_refl _)

theorem splitLine_suffix (n : Nat) (bytes : Bytes) : (splitLine n bytes).2 <:+ bytes :=
  ⟨_, splitLine_append n bytes⟩

theorem readFrame_suffix {bodyMax : Nat} {ended : Bool} {bytes rest : Bytes} {frame : Frame}
    (h : readFrame bodyMax ended bytes = some (frame, rest)) : rest <:+ bytes := by
  fun_induction readFrame bodyMax ended bytes generalizing frame rest with
  | case1 =>
    obtain ⟨-, rfl⟩ := Prod.mk.inj (Option.some.inj h)
    exact List.suffix_refl _
  | case2 => simp at h
  | case3 => simp at h
  | case4 bytes =>
    obtain ⟨-, rfl⟩ := Prod.mk.inj (Option.some.inj h)
    exact splitLine_suffix maxLine bytes
  | case5 bytes =>
    rename_i ih
    exact (ih h).trans (splitLine_suffix maxLine bytes)
  | case6 bytes => exact (readCommand_suffix h).trans (splitLine_suffix maxLine bytes)

/-- Every frame takes at least one byte of a stream that is not empty. -/
theorem length_readFrame_lt {bodyMax : Nat} {ended : Bool} {bytes rest : Bytes} {frame : Frame}
    (filled : bytes ≠ []) (h : readFrame bodyMax ended bytes = some (frame, rest)) :
    rest.length < bytes.length := by
  fun_induction readFrame bodyMax ended bytes generalizing frame rest with
  | case1 => exact absurd rfl filled
  | case2 => exact absurd rfl filled
  | case3 => simp at h
  | case4 bytes =>
    obtain ⟨-, rfl⟩ := Prod.mk.inj (Option.some.inj h)
    exact length_splitLine_lt bytes filled
  | case5 bytes =>
    rename_i ih
    have shorter := length_splitLine_lt bytes filled
    by_cases more : (splitLine maxLine bytes).2 = []
    · rw [more, readFrame] at h
      simp only [↓reduceDIte] at h
      split at h
      · obtain ⟨-, rfl⟩ := Prod.mk.inj (Option.some.inj h)
        exact List.length_pos_iff.mpr filled
      · simp at h
    · exact Nat.lt_trans (ih more h) shorter
  | case6 bytes =>
    exact Nat.lt_of_le_of_lt (readCommand_suffix h).length_le (length_splitLine_lt bytes filled)

/-- The frames of a stream, up to its end. -/
def frames (bodyMax : Nat) (bytes : Bytes) : List Frame :=
  if _ : bytes = [] then [.eof]
  else
    match _ : readFrame bodyMax true bytes with
    | none => []
    | some (.eof, _) => [.eof]
    | some (.cut, _) => [.cut]
    | some (frame, rest) => frame :: frames bodyMax rest
termination_by bytes.length
decreasing_by exact length_readFrame_lt (by assumption) (by assumption)

/-- The frames that are answered: a session ends where the client quits or the stream ends. -/
def answered : List Frame → List Frame
  | [] | .eof :: _ | .cut :: _ | .request .quit :: _ => []
  | frame :: rest => frame :: answered rest

end QuorumKv.Wire
