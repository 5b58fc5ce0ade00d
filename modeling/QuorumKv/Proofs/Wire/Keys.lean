import QuorumKv.Proofs.Text.Tokens
import QuorumKv.Proofs.Wire.Commands

/-! The keys of a request and the bytes that were sent for them. Keys are decoded forgivingly, but
one that is accepted holds no U+FFFD, so it is written as the very bytes of its token. -/
namespace QuorumKv

namespace Key

variable {maxLength : Nat} {token : Bytes}

/-- An accepted key was sent as it is written. -/
theorem encode_of_validate
    (valid : validate maxLength (Text.Utf8.decodeLossy token) = .ok ()) :
    Text.Utf8.encode (Text.Utf8.decodeLossy token) = token :=
  Text.Utf8.encode_decodeLossy (replacement_notMem valid)

theorem decode?_of_validate
    (valid : validate maxLength (Text.Utf8.decodeLossy token) = .ok ()) :
    Text.Utf8.decode? token = some (Text.Utf8.decodeLossy token) := by
  have read := Text.Utf8.decode?_encode (Text.Utf8.decodeLossy token)
  rwa [encode_of_validate valid] at read

/-- No two tokens are the same accepted key. -/
theorem token_unique {other : Bytes}
    (valid : validate maxLength (Text.Utf8.decodeLossy token) = .ok ())
    (same : Text.Utf8.decodeLossy other = Text.Utf8.decodeLossy token) : other = token := by
  rw [← encode_of_validate valid, ← same, encode_of_validate (same ▸ valid)]

end Key

namespace Wire

/-- The first line of a stream that is not blank, with the tokens of its arguments. -/
structure CommandLine (bytes line : Bytes) (args : List Bytes) : Prop where
  placed : ∃ blank left, bytes = blank ++ line ++ left ∧ Text.Tokens blank []
  ended : ∃ text, line = text ++ [Bytes.lf] ∧ Bytes.lf ∉ text
  /-- A line has these tokens and no others. -/
  said : ∃ verb, ∀ tokens, Text.Tokens line tokens ↔ tokens = verb :: args

/-- Every request was read from such a line, and the keys that it names are the first arguments, each
decoded by itself. -/
theorem exists_commandLine {bodyMax : Nat} {ended : Bool} {bytes rest : Bytes} {r : Request}
    (read : readFrame bodyMax ended bytes = some (.request r, rest)) :
    ∃ line args, CommandLine bytes line args ∧ r.keys <+: args.map Text.Utf8.decodeLossy := by
  fun_induction readFrame bodyMax ended bytes with
  | case1 => cases read
  | case2 => cases read
  | case3 => cases read
  | case4 => cases read
  | case5 bytes filled first closed whole nothing =>
    rename_i ih
    obtain ⟨line, args, ⟨⟨blank, left, parts, blanks⟩, ended, said⟩, named⟩ := ih read
    obtain ⟨tokens, cut⟩ := Text.exists_tokens first
    obtain rfl : tokens = [] := List.map_eq_nil_iff.mp (cut.splitWords_eq ▸ nothing)
    refine ⟨line, args, ⟨⟨first ++ blank, left, ?_, cut.append blanks⟩, ended, said⟩, named⟩
    rw [← splitLine_append maxLine bytes, parts]
    simp only [first, List.append_assoc]
  | case6 bytes filled line closed whole command args said =>
    obtain ⟨tokens, cut⟩ := Text.exists_tokens line
    rw [cut.splitWords_eq] at said
    obtain ⟨verb, sent, rfl, -, decoded⟩ := List.map_eq_cons_iff.mp said
    have parts := splitLine_append maxLine bytes
    have closed_line : endsLine line = true := by simpa using whole
    refine ⟨line, sent, ⟨⟨[], _, parts.symm, .nil⟩, ?_, verb, Text.tokens_iff cut⟩, ?_⟩
    · exact exists_text_of_endsLine closed_line
    · rw [decoded]
      exact keys_of_readCommand read

end Wire

end QuorumKv
