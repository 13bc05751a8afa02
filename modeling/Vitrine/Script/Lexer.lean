import Vitrine.Fault
import Vitrine.Script.Token
import Vitrine.Text.Digit
import Vitrine.Text.Quoted

/-!
The lexer. Blanks and comments that run from `//` to the end of the line stand between tokens; at
every other place the longest token is taken. Names are ASCII, digits may come from any script, and
a letter or digit sign that begins neither is a fault.
-/
namespace Vitrine
namespace Script

inductive LexError where
  | unexpected (c : Char) (pos : Nat)
  | unterminatedEscape (pos : Nat)
  | unterminatedString (pos : Nat)
  | fault (f : Fault)

def LexError.message : LexError → String
  | .unexpected c _ => "Unexpected character: " ++ Text.quote (String.singleton c)
  | .unterminatedEscape _ => "Unterminated escape sequence"
  | .unterminatedString _ => "Unterminated string literal"
  | .fault f => f.label

def LexError.pos : LexError → Nat
  | .unexpected _ p | .unterminatedEscape p | .unterminatedString p => p
  | .fault _ => 0

def isSkipped (c : Char) : Bool := c = ' ' || c = '\t' || c = '\n' || c = '\r'

def isNameStart (c : Char) : Bool := Text.isAsciiLetter c || c = '_' || c = '$'

def isNameChar (c : Char) : Bool := isNameStart c || Text.isAsciiDigit c

/-- The character that a backslash in front of `c` stands for. -/
def unescape (c : Char) : Char :=
  match c with
  | 'n' => '\n'
  | 't' => '\t'
  | 'r' => '\r'
  | '0' => Char.ofNat 0
  | 'b' => Char.ofNat 8
  | 'f' => Char.ofNat 12
  | 'v' => Char.ofNat 11
  | c => c

/-- The content of a string, the position behind its closing quote and the characters there. The
string began at `start`, and the characters are those from `pos` on. -/
def stringBody (quote : Char) (start pos : Nat) :
    List Char → Except LexError (List Char × Nat × List Char)
  | [] => .error (.unterminatedString start)
  | ['\\'] => .error (.unterminatedEscape pos)
  | '\\' :: c :: cs => do
    let (text, stop, rest) ← stringBody quote start (pos + 2) cs
    return (unescape c :: text, stop, rest)
  | c :: cs =>
    if c = '\n' then .error (.unterminatedString start)
    else if c = quote then .ok ([], pos + 1, cs)
    else do
      let (text, stop, rest) ← stringBody quote start (pos + 1) cs
      return (c :: text, stop, rest)

theorem stringBody_length {quote : Char} {start pos stop : Nat} {cs text rest : List Char}
    (h : stringBody quote start pos cs = .ok (text, stop, rest)) : rest.length < cs.length := by
  fun_induction stringBody quote start pos cs generalizing text stop rest with
  | case1 => simp at h
  | case2 => simp at h
  | case3 pos c cs ih =>
    match hb : stringBody quote start (pos + 2) cs with
    | .error e => simp [hb, bind, Except.bind] at h
    | .ok (t, p, r) =>
      simp [hb, bind, Except.bind, pure, Except.pure] at h
      obtain ⟨_, _, rfl⟩ := h
      have := ih hb
      simp only [List.length_cons]
      omega
  | case4 => simp at h
  | case5 =>
    simp only [Except.ok.injEq, Prod.mk.injEq] at h
    simp [← h.2.2]
  | case6 pos c cs _ _ _ _ ih =>
    match hb : stringBody quote start (pos + 1) cs with
    | .error e => simp [hb, bind, Except.bind] at h
    | .ok (t, p, r) =>
      simp [hb, bind, Except.bind, pure, Except.pure] at h
      obtain ⟨_, _, rfl⟩ := h
      have := ih hb
      simp only [List.length_cons]
      omega

/-- The digits at the front. -/
def digitsAtFront (cs : List Char) : List Char := cs.takeWhile Text.isDecimalDigit

/-- A point and digits, if both stand at the front. -/
def fractionAtFront : List Char → List Char
  | '.' :: cs =>
    let ds := digitsAtFront cs
    if ds.isEmpty then [] else '.' :: ds
  | _ => []

/-- An exponent mark, an optional sign and digits, if they stand at the front. -/
def exponentAtFront : List Char → List Char
  | e :: cs =>
    if e = 'e' || e = 'E' then
      match cs with
      | s :: rest =>
        if s = '+' || s = '-' then
          let ds := digitsAtFront rest
          if ds.isEmpty then [] else e :: s :: ds
        else
          let ds := digitsAtFront cs
          if ds.isEmpty then [] else e :: ds
      | [] => []
    else []
  | [] => []

/-- The number at the front, and whether it is a whole number without an exponent. -/
def numberAtFront (cs : List Char) : Kind × List Char :=
  let whole := digitsAtFront cs
  let fraction := fractionAtFront (cs.drop whole.length)
  let exponent := exponentAtFront (cs.drop (whole.length + fraction.length))
  (if fraction.isEmpty && exponent.isEmpty then .int else .float, whole ++ fraction ++ exponent)

/-- The kind of a word. -/
def kindOfWord (word : String) : Kind :=
  match keywordTable.lookup word with
  | some k => .keyword k
  | none => .ident

/-- The longest symbol at the front. -/
def symbolAtFront (cs : List Char) : Option (String × Symbol) :=
  symbolTable.find? fun s => s.1.toList.isPrefixOf cs

/-- The number of characters from `//` to the end of the line, the line feed included. -/
def commentLength (cs : List Char) : Nat :=
  let n := (cs.takeWhile (· != '\n')).length
  if n < cs.length then n + 1 else n

/-- The token at the front other than a string, with its characters. -/
def tokenAtFront (pos : Nat) (c : Char) (cs : List Char) : Except LexError (Kind × List Char) :=
  if Text.isDigitSign c then
    if Text.isDecimalDigit c then .ok (numberAtFront (c :: cs)) else .error (.fault .assertion)
  else if Text.isLetter c || c = '_' || c = '$' then
    if isNameStart c then
      let word := c :: cs.takeWhile isNameChar
      .ok (kindOfWord (String.ofList word), word)
    else .error (.fault .assertion)
  else
    match symbolAtFront (c :: cs) with
    | some (text, s) => .ok (.symbol s, text.toList)
    | none => .error (.unexpected c pos)

/-- The tokens of the characters from position `pos` on; the last one is the end of input. -/
def lex (pos : Nat) (cs : List Char) : Except LexError (List Token) :=
  match cs with
  | [] => .ok [⟨.eof, "", pos⟩]
  | c :: rest =>
    if isSkipped c then lex (pos + 1) rest
    else if c = '/' && rest.head? = some '/' then
      let n := commentLength (c :: rest)
      lex (pos + n) (rest.drop (n - 1))
    else if c = '"' || c = '\'' then
      match h : stringBody c pos (pos + 1) rest with
      | .error e => .error e
      | .ok (text, stop, after) =>
        have := stringBody_length h
        (lex stop after).map (⟨.string, String.ofList text, pos⟩ :: ·)
    else
      match tokenAtFront pos c rest with
      | .error e => .error e
      | .ok (kind, text) =>
        (lex (pos + text.length) (rest.drop (text.length - 1))).map
          (⟨kind, String.ofList text, pos⟩ :: ·)
termination_by cs.length
decreasing_by all_goals (simp_wf; try omega)

def tokenize (source : String) : Except LexError (List Token) := lex 0 source.toList

end Script
end Vitrine
