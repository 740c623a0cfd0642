import RegisterMachine.Assembly.Literal
import RegisterMachine.Assembly.Token
import RegisterMachine.Instruction.Opcode
import RegisterMachine.Instruction.Register
import RegisterMachine.Notice

set_option autoImplicit false

/-! # Encoding

`Assembly.assemble` turns a source text into one word per token. A token is resolved by its place
in its line: the first names an operation, an operand that begins with `R` names a register, and any
other operand is a literal. What cannot be resolved becomes the word `unresolved` and is reported;
only a literal beyond the decimal digit limit stops the assembly. The words and the notices of a
successful encoding are those of its tokens, one after the other (`encode_cons`). -/

namespace RegisterMachine.Assembly

/-! ## Tokens -/

/-- Where a token stands in its line. -/
inductive Place where
  | operation
  | operand
  deriving DecidableEq, Repr

/-- The place of the token at an index of its line. -/
def Place.ofIndex (index : Int) : Place :=
  if index = 0 then .operation else .operand

/-- The word of the operation with a name, in any mixture of case. -/
def operationWord (name : Token) : Int :=
  match Opcode.ofSpelling? (Text.upper name) with
  | some op => op.code
  | none => unresolved

/-- The word of the register with a name. -/
def registerWord (name : Token) : Int :=
  match Register.ofSpelling? name with
  | some r => r.val
  | none => unresolved

/-- The word of a token. Of a register operand only the part before the first comma counts. -/
def encodeToken (place : Place) (token : Token) : Except Failure Int :=
  match place with
  | .operation => .ok (operationWord token)
  | .operand =>
    if looksLikeRegister token then .ok (registerWord (token.takeWhile (· ≠ ',')))
    else parseLiteral token

/-! ## Lines -/

/-- What an assembly reported, and its words unless it failed. -/
structure Encoding where
  notices : List Notice
  outcome : Except Failure (List Int)

/-- The tokens of a line with their places. -/
def placeTokens : TokenLine → List (Place × Token)
  | [] => []
  | operation :: operands => (.operation, operation) :: operands.map (.operand, ·)

/-- The words of tokens, the first of which gets the word at `offset`. -/
def encode (offset : Nat) : List (Place × Token) → Encoding
  | [] => ⟨[], .ok []⟩
  | (place, token) :: rest =>
    match encodeToken place token with
    | .error failure => ⟨[], .error failure⟩
    | .ok word =>
      let later := encode (offset + 1) rest
      let report := if word = unresolved then [.unresolvedToken token offset] else []
      ⟨report ++ later.notices, later.outcome.map (word :: ·)⟩

/-- A token in the form in which it is encoded: without separators around it, in upper case. -/
def canonicalToken (token : Token) : Token :=
  Text.upper (Text.trim Text.isSeparator token)

/-- The words of token lines. -/
def encodeLines (lines : List TokenLine) : Encoding :=
  encode 0 (lines.flatMap fun line => placeTokens (line.map canonicalToken))

/-- The words of a source text. -/
def assemble (source : String) : Encoding :=
  let lines := tokenLines source
  let encoded := encodeLines lines
  { encoded with notices := .encoding lines.length :: encoded.notices }

/-! ## Laws -/

theorem encode_cons {place : Place} {token : Token} {word : Int} (offset : Nat)
    (rest : List (Place × Token)) (h : encodeToken place token = .ok word) :
    encode offset ((place, token) :: rest) =
      ⟨(if word = unresolved then [.unresolvedToken token offset] else [])
          ++ (encode (offset + 1) rest).notices,
        (encode (offset + 1) rest).outcome.map (word :: ·)⟩ := by
  simp [encode, h]

theorem encode_cons_of_error {place : Place} {token : Token} {failure : Failure} (offset : Nat)
    (rest : List (Place × Token)) (h : encodeToken place token = .error failure) :
    encode offset ((place, token) :: rest) = ⟨[], .error failure⟩ := by
  simp [encode, h]

end RegisterMachine.Assembly
