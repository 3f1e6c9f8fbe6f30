import LanguageRoster.Choice.Header

/-!
# Finding the choice

`Choice.locate` cuts a document at its choice. The header has to occur once; the lines behind it are members up to the
line that closes the choice; the first member is the anchor, and at least one more follows it. Otherwise the mismatch
names what is wrong first.
-/

namespace LanguageRoster.Choice

set_option autoImplicit false

/-- The members at the front of the lines, the line that closes the choice, and the text behind it. The first of the
lines has the number `number`. -/
def body (rule : Text) : (number : Nat) → List Text → Except Mismatch (List Member × Text × Text)
  | number, [] => .error (.unterminated number rule)
  | number, line :: more =>
    match Member.read? line with
    | some m =>
      match body rule (number + 1) more with
      | .ok (ms, closing, after) => .ok (m :: ms, closing, after)
      | .error e => .error e
    | none =>
      match closing? line with
      | some (closing, ending) => .ok ([], closing, ending ++ more.flatten)
      | none => .error (.unexpectedLine number line.trim)

/-- The block, if it starts with the anchor and goes on behind it. -/
def Block.check (p : Pattern) (b : Block) : Except Mismatch Block :=
  match b.members with
  | [] => .error (.missingAnchor p.rule p.anchor none)
  | first :: others =>
    if first.value ≠ p.anchor then .error (.missingAnchor p.rule p.anchor (some (first.value, b.firstLine)))
    else if others = [] then .error (.noLanguages p.rule p.anchor)
    else .ok b

/-- The document cut at its choice. -/
def locate (p : Pattern) (t : Text) : Except Mismatch Block :=
  match find? p true t with
  | none => .error (.headerNotFound p.marker.trim p.rule)
  | some hit =>
    match count p 0 true hit.rest with
    | 0 =>
      match body p.rule (1 + Text.lineFeeds (hit.before ++ hit.header)) (Text.lines hit.rest) with
      | .error e => .error e
      | .ok (members, closing, after) => Block.check p ⟨hit.before, hit.header, members, closing, after⟩
    | more + 1 => .error (.ambiguous p.rule (more + 2))

end LanguageRoster.Choice
