import LanguageRoster.Json.Number
import LanguageRoster.Record

/-!
# Reading JSON

The reader goes through a text character by character. It keeps the brackets that are open, with what they hold so far,
and what it is in the middle of.

* `Json.Malformed` : why a text is no document, and where
* `Json.Frame`, `Json.Phase`, `Json.Reading` : the state of the reader; `Reading.step` reads one character
* `Json.read` : the document of a text
-/

namespace LanguageRoster.Json

set_option autoImplicit false

/-! ## Complaints -/

/-- A position in a text: the line, from 1, and the number of bytes before it in the line. -/
structure Position where
  line : Nat := 1
  column : Nat := 0
  deriving DecidableEq, Repr

namespace Position

def within (p : Position) (c : Char) (bytes : Nat) : Position :=
  if c = '\n' then ⟨p.line + 1, 0⟩ else ⟨p.line, p.column + bytes⟩

def past (p : Position) (c : Char) : Position := p.within c c.utf8Size

end Position

inductive Complaint where
  | endInValue
  | endInList
  | endInObject
  | endInString
  | noValue
  | noWord
  | noColon
  | noListComma
  | noObjectComma
  | noKey
  | trailingComma
  | trailingCharacters
  | invalidNumber
  | numberOutOfRange
  | invalidEscape
  | loneSurrogate
  | endOfSurrogate
  | controlCharacter
  | tooDeep
  deriving DecidableEq, Repr

def Complaint.message : Complaint → String
  | .endInValue => "EOF while parsing a value"
  | .endInList => "EOF while parsing a list"
  | .endInObject => "EOF while parsing an object"
  | .endInString => "EOF while parsing a string"
  | .noValue => "expected value"
  | .noWord => "expected ident"
  | .noColon => "expected `:`"
  | .noListComma => "expected `,` or `]`"
  | .noObjectComma => "expected `,` or `\x7d`"
  | .noKey => "key must be a string"
  | .trailingComma => "trailing comma"
  | .trailingCharacters => "trailing characters"
  | .invalidNumber => "invalid number"
  | .numberOutOfRange => "number out of range"
  | .invalidEscape => "invalid escape"
  | .loneSurrogate => "lone leading surrogate in hex escape"
  | .endOfSurrogate => "unexpected end of hex escape"
  | .controlCharacter => "control character (\\u0000-\\u001F) found while parsing a string"
  | .tooDeep => "recursion limit exceeded"

structure Malformed where
  complaint : Complaint
  position : Position
  deriving DecidableEq, Repr

def Malformed.message (m : Malformed) : String :=
  m.complaint.message ++ " at line " ++ toString m.position.line ++ " column " ++ toString m.position.column

/-! ## The state -/

def greatestDepth : Nat := 127

/-- A bracket that is open while one of its values is read. -/
inductive Frame where
  /-- A list with the items before the value, the latest first. -/
  | list (items : List Json)
  /-- An object with the fields before the value, and the key of the value. -/
  | field (fields : List (Text × Json)) (key : Text)

inductive Escape where
  | outside
  | slash
  /-- In the four bytes of a character's number, with those read; the leading half of a pair may stand before it. -/
  | number (lead : Option Nat) (bytes : Nat) (n : Option Nat)
  | pair (lead : Nat)
  /-- Behind the leading half of a pair and a backslash. -/
  | pairSlash (lead : Nat)

/-- What the reader is in the middle of. -/
inductive Phase where
  | value
  | firstItem
  | nextItem
  | firstKey
  | nextKey (fields : List (Text × Json))
  | colon (fields : List (Text × Json)) (key : Text)
  /-- In a word that stands for a value, before the rest of it. -/
  | word (rest : Text) (v : Json)
  | number (negative : Bool) (n : Number)
  /-- In a string, with its characters so far, the latest first. A key has the fields before it. -/
  | string (key : Option (List (Text × Json))) (read : Text) (e : Escape)
  | done (v : Json)

structure Reading where
  stack : List Frame
  phase : Phase

/-! ## One character -/

def isBlank (c : Char) : Bool := c == ' ' || c == '\n' || c == '\t' || c == '\r'

def Reading.start (stack : List Frame) (c : Char) : Except Complaint Phase :=
  match c with
  | '"' => .ok (.string none [] .outside)
  | '[' => if greatestDepth ≤ stack.length then .error .tooDeep else .ok .firstItem
  | '{' => if greatestDepth ≤ stack.length then .error .tooDeep else .ok .firstKey
  | 't' => .ok (.word ['r', 'u', 'e'] (.bool true))
  | 'f' => .ok (.word ['a', 'l', 's', 'e'] (.bool false))
  | 'n' => .ok (.word ['u', 'l', 'l'] .null)
  | '-' => .ok (.number true .sign)
  | _ =>
    match Number.digit? c with
    | some d => .ok (.number false (if d = 0 then .zero else .whole d))
    | none => .error .noValue

def Reading.after (stack : List Frame) (v : Json) (c : Char) : Except Complaint Reading :=
  if isBlank c then .ok ⟨stack, .done v⟩
  else
    match stack with
    | [] => .error .trailingCharacters
    | .list items :: outer =>
      if c = ',' then .ok ⟨.list (v :: items) :: outer, .nextItem⟩
      else if c = ']' then .ok ⟨outer, .done (.list (v :: items).reverse)⟩
      else .error .noListComma
    | .field fields key :: outer =>
      if c = ',' then .ok ⟨outer, .nextKey (Record.set key v fields)⟩
      else if c = '}' then .ok ⟨outer, .done (.object (Record.set key v fields))⟩
      else .error .noObjectComma

def Phase.ofString (key : Option (List (Text × Json))) (t : Text) : Phase :=
  match key with
  | none => .done (.string t)
  | some fields => .colon fields t

def escaped? (c : Char) : Option Char :=
  match c with
  | '"' => some '"'
  | '\\' => some '\\'
  | '/' => some '/'
  | 'b' => some '\x08'
  | 'f' => some '\x0c'
  | 'n' => some '\n'
  | 'r' => some '\r'
  | 't' => some '\t'
  | _ => none

def hexDigit? (c : Char) : Option Nat :=
  if c.isDigit then some (c.toNat - '0'.toNat)
  else if 'a' ≤ c ∧ c ≤ 'f' then some (c.toNat - 'a'.toNat + 10)
  else if 'A' ≤ c ∧ c ≤ 'F' then some (c.toNat - 'A'.toNat + 10)
  else none

/-- Goes on behind the four digits of a character's number: a number alone is the character's, and numbers of two
halves make one. -/
def Escape.ofNumber (lead : Option Nat) (n : Nat) (read : Text) : Except Complaint (Text × Escape) :=
  match lead with
  | some lead =>
    if 0xDC00 ≤ n ∧ n ≤ 0xDFFF then
      .ok (Char.ofNat (0x10000 + (lead - 0xD800) * 0x400 + (n - 0xDC00)) :: read, .outside)
    else .error .loneSurrogate
  | none =>
    if 0xDC00 ≤ n ∧ n ≤ 0xDFFF then .error .loneSurrogate
    else if 0xD800 ≤ n ∧ n ≤ 0xDBFF then .ok (read, .pair n)
    else .ok (Char.ofNat n :: read, .outside)

/-- Reads a character of a string, with its position. Faults lie behind the first byte of the character, but an ill
number's behind its four bytes. -/
def Reading.inString (p : Position) (stack : List Frame) (key : Option (List (Text × Json))) (read : Text)
    (e : Escape) (c : Char) : Except Malformed Reading :=
  let stay (read : Text) (e : Escape) : Except Malformed Reading := .ok ⟨stack, .string key read e⟩
  let fail (m : Complaint) : Except Malformed Reading := .error ⟨m, p.within c 1⟩
  match e with
  | .outside =>
    if c = '"' then .ok ⟨stack, Phase.ofString key read.reverse⟩
    else if c = '\\' then stay read .slash
    else if c.toNat < 0x20 then fail .controlCharacter
    else stay (c :: read) .outside
  | .slash =>
    if c = 'u' then stay read (.number none 0 (some 0))
    else match escaped? c with
      | some d => stay (d :: read) .outside
      | none => fail .invalidEscape
  | .number lead bytes n =>
    let n' := do return (← n) * 16 + (← hexDigit? c)
    if bytes + c.utf8Size < 4 then stay read (.number lead (bytes + c.utf8Size) n')
    else match n' with
      | none => .error ⟨.invalidEscape, p.within c (4 - bytes)⟩
      | some n =>
        match Escape.ofNumber lead n read with
        | .ok (read, e) => stay read e
        | .error m => fail m
  | .pair lead => if c = '\\' then stay read (.pairSlash lead) else fail .endOfSurrogate
  | .pairSlash lead => if c = 'u' then stay read (.number (some lead) 0 (some 0)) else fail .endOfSurrogate

def Reading.step (p : Position) (s : Reading) (c : Char) : Except Malformed Reading :=
  let onto (r : Except Complaint Reading) : Except Malformed Reading := r.mapError (⟨·, p.within c 1⟩)
  let start (stack : List Frame) := onto ((Reading.start stack c).map (⟨stack, ·⟩))
  match s.phase with
  | .value => if isBlank c then .ok s else start s.stack
  | .firstItem =>
    if isBlank c then .ok s
    else if c = ']' then .ok ⟨s.stack, .done (.list [])⟩
    else start (.list [] :: s.stack)
  | .nextItem => if isBlank c then .ok s else if c = ']' then onto (.error .trailingComma) else start s.stack
  | .firstKey =>
    if isBlank c then .ok s
    else if c = '}' then .ok ⟨s.stack, .done (.object [])⟩
    else if c = '"' then .ok ⟨s.stack, .string (some []) [] .outside⟩
    else onto (.error .noKey)
  | .nextKey fields =>
    if isBlank c then .ok s
    else if c = '"' then .ok ⟨s.stack, .string (some fields) [] .outside⟩
    else if c = '}' then onto (.error .trailingComma)
    else onto (.error .noKey)
  | .colon fields key =>
    if isBlank c then .ok s
    else if c = ':' then .ok ⟨.field fields key :: s.stack, .value⟩
    else onto (.error .noColon)
  | .word rest v =>
    match rest with
    | [] => onto (Reading.after s.stack v c)
    | [d] => if c = d then .ok ⟨s.stack, .done v⟩ else onto (.error .noWord)
    | d :: rest => if c = d then .ok ⟨s.stack, .word rest v⟩ else onto (.error .noWord)
  | .number negative n =>
    match n.next c with
    | .error .invalid => onto (.error .invalidNumber)
    | .error .outOfRange => onto (.error .numberOutOfRange)
    | .ok (some n) => .ok ⟨s.stack, .number negative n⟩
    | .ok none =>
      match n.value? negative with
      | some v => onto (Reading.after s.stack v c)
      | none => .error ⟨.numberOutOfRange, p⟩
  | .string key read e => Reading.inString p s.stack key read e c
  | .done v => onto (Reading.after s.stack v c)

/-! ## The end -/

/-- What the reader has at the end of the text, behind the value. -/
def Reading.close (stack : List Frame) (v : Json) : Except Complaint Json :=
  match stack with
  | [] => .ok v
  | .list _ :: _ => .error .endInList
  | .field .. :: _ => .error .endInObject

def Reading.finish (s : Reading) : Except Complaint Json :=
  match s.phase with
  | .value | .nextItem | .nextKey _ | .word .. => .error .endInValue
  | .firstItem => .error .endInList
  | .firstKey | .colon .. => .error .endInObject
  | .string .. => .error .endInString
  | .number negative n =>
    if n.complete then
      match n.value? negative with
      | some v => Reading.close s.stack v
      | none => .error .numberOutOfRange
    else .error .endInValue
  | .done v => Reading.close s.stack v

def Reading.run (p : Position) (s : Reading) : Text → Except Malformed Json
  | [] => s.finish.mapError (⟨·, p⟩)
  | c :: t =>
    match s.step p c with
    | .ok s => run (p.past c) s t
    | .error m => .error m

def read (t : Text) : Except Malformed Json := Reading.run {} ⟨[], .value⟩ t

end LanguageRoster.Json
