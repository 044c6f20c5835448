import ExprCalc.Text.CharClass
import ExprCalc.Number.Read
import ExprCalc.Token.Basic

namespace ExprCalc

inductive ScanError where
  | unterminatedString (position : Position)
  | unrecognizedCharacter (code : Int32) (position : Position)

abbrev ScanItem := Except ScanError Token

structure Scanner where
  rest : List Rune
  position : Position

namespace Scanner

def ofText (source : Text) : Scanner :=
  ⟨source.runes, .start⟩

def drop (s : Scanner) (n : Nat) : Scanner :=
  ⟨s.rest.drop n, s.position.afterAll (s.rest.take n)⟩

def isDigit : Rune → Bool
  | .char c => '0' ≤ c && c ≤ '9'
  | .stray _ => false

def startsWord : Rune → Bool
  | .char c => c == '_' || Text.isLetter c
  | .stray _ => false

def continuesWord (r : Rune) : Bool :=
  startsWord r || isDigit r

def runLength (p : Rune → Bool) (rs : List Rune) : Nat :=
  (rs.takeWhile p).length

inductive Gap where
  | none
  | comment

/-- The length of the white space and comments at the start of the input. A comment runs from two
slashes to the end of its line. -/
def triviaLength : Gap → List Rune → Nat
  | _, [] => 0
  | .comment, r :: rs =>
    1 + triviaLength (if r = .char '\n' then .none else .comment) rs
  | .none, .char c :: rs =>
    if c = ' ' ∨ c = '\r' ∨ c = '\t' ∨ c = '\n' then 1 + triviaLength .none rs
    else if c = '/' ∧ rs.head? = some (.char '/') then 1 + triviaLength .comment rs
    else 0
  | .none, .stray _ :: _ => 0

def skipTrivia (s : Scanner) : Scanner :=
  s.drop (triviaLength .none s.rest)

/-- The length of a numeral after its first digit: more digits, then a point only if a digit
follows it. -/
def numeralLength (rs : List Rune) : Nat :=
  let whole := runLength isDigit rs
  match rs.drop whole with
  | .char '.' :: r :: more => if isDigit r then whole + 2 + runLength isDigit more else whole
  | _ => whole

/-- What the input starts with: a token, of which `more` runes follow the first, or none. -/
inductive Match where
  | token (kind : Kind) (more : Nat)
  | openString
  | nothing

def longest (r : Rune) (rs : List Rune) : Match :=
  match r with
  | .stray _ => .nothing
  | .char c =>
    match Kind.ofMark? c with
    | some kind => .token kind 0
    | none =>
      match Kind.ofComparison? c with
      | some (alone, withEqual) =>
        if rs.head? = some (.char '=') then .token withEqual 1 else .token alone 0
      | none =>
        if c = '"' then
          let inside := runLength (· ≠ .char '"') rs
          if (rs.drop inside).isEmpty then .openString else .token .string (inside + 1)
        else if isDigit r then .token .number (numeralLength rs)
        else if startsWord r then
          let more := runLength continuesWord rs
          .token (Kind.ofWord (Text.ofRunes (r :: rs.take more))) more
        else .nothing

/-- The payload of a token: a string's text without its quotes, a numeral's value. -/
def payload (kind : Kind) (lexeme : List Rune) : Option Payload :=
  match kind with
  | .string => some (.string (Text.ofRunes (lexeme.drop 1).dropLast))
  | .number => (Number.read? (Text.ofRunes lexeme)).map .number
  | _ => none

def token (r : Rune) (rs : List Rune) (p : Position) : ScanItem × Scanner :=
  match longest r rs with
  | .token kind more =>
    let lexeme := r :: rs.take more
    (.ok ⟨kind, Text.ofRunes lexeme, p, payload kind lexeme⟩, ⟨rs.drop more, p.afterAll lexeme⟩)
  | .openString => (.error (.unterminatedString p), ⟨[], p.afterAll (r :: rs)⟩)
  | .nothing =>
    (.error (.unrecognizedCharacter (Int32.ofNat r.shown.toNat) p), ⟨rs, p.after r⟩)

/-- The next token or scan error. At the end of the input it is the end token, again and again. -/
def next (s : Scanner) : ScanItem × Scanner :=
  let s := s.skipTrivia
  match s.rest with
  | [] => (.ok (.eof s.position), s)
  | r :: rs => token r rs s.position

theorem token_rest_length_le (r : Rune) (rs : List Rune) (p : Position) :
    (token r rs p).2.rest.length ≤ rs.length := by
  unfold token
  split <;> simp

theorem skipTrivia_rest_length_le (s : Scanner) : s.skipTrivia.rest.length ≤ s.rest.length := by
  simp [skipTrivia, drop]

def items (s : Scanner) : List ScanItem :=
  match _h : s.skipTrivia.rest with
  | [] => [.ok (.eof s.skipTrivia.position)]
  | r :: rs =>
    let found := token r rs s.skipTrivia.position
    found.1 :: items found.2
termination_by s.rest.length
decreasing_by
  have h₁ := token_rest_length_le r rs s.skipTrivia.position
  have h₂ := s.skipTrivia_rest_length_le
  simp only [_h, List.length_cons] at h₂
  exact Nat.lt_of_lt_of_le (Nat.lt_succ_of_le h₁) h₂

end Scanner

namespace Text

def scan (source : Text) : List ScanItem :=
  (Scanner.ofText source).items

end Text

end ExprCalc
