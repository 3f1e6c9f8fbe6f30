import LanguageRoster.Shell.Pattern
import LanguageRoster.Shell.Utility.Files

/-!
# Utilities on streams

Those that read files, or what comes in, and show some of it, in another order or form.
-/

namespace LanguageRoster.Shell.Utility

set_option autoImplicit false

/-! ## Whole files -/

/-- Shows files one after another, with the lines numbered if an option asks for it. -/
def cat : Utility := withOptions "nbEuA" "" 1 fun t c g =>
  let lineEnd (l : Bytes) : Bytes := if g.has 'E' ∧ l.getLast? = some 10 then bare l ++ [36, 10] else l
  (g.files.foldl (fun (r, n) file =>
    match content t c file with
    | .error f => (Finished.complain r (about c.name file f) 1, n)
    | .ok b =>
      if g.has 'n' ∨ g.has 'b' then
        (linesOf b).foldl (fun (r, n) l =>
          if g.has 'b' ∧ bare l = [] then (Finished.say r (lineEnd l), n)
          else (Finished.say r (Text.bytes (column 6 n ++ ['\t']) ++ lineEnd l), n + 1)) (r, n)
      else (Finished.say r ((linesOf b).flatMap lineEnd), n)) (({ tree := t : Finished }), 1)).1

structure Portion where
  bytes : Bool := false
  count : Nat := 10
  sign : Option Char := none

def Portion.choose {α : Type} (p : Portion) (atEnd : Bool) (xs : List α) : List α :=
  if atEnd then
    if p.sign = some '+' then xs.drop (p.count - 1) else xs.drop (xs.length - p.count)
  else if p.sign = some '-' then xs.take (xs.length - p.count)
  else xs.take p.count

def withNumber (atEnd : Bool) : List Text → List Text
  | ('-' :: c :: n) :: args =>
    if (c :: n).all Char.isDigit then ['-', 'n'] :: (c :: n) :: args else ('-' :: c :: n) :: args
  | ('+' :: c :: n) :: args =>
    if atEnd ∧ (c :: n).all Char.isDigit then ['-', 'n'] :: ('+' :: c :: n) :: args else ('+' :: c :: n) :: args
  | args => args

def portion? (bytes : Bool) (value : Text) : Option Portion :=
  let (sign, digits) := match value with
    | '+' :: d => (some '+', d)
    | '-' :: d => (some '-', d)
    | d => (none, d)
  if digits = [] ∨ !digits.all Char.isDigit then none else some { bytes, count := ofDigits 10 digits, sign }

/-- Shows a portion of each file, behind its name if there are several. -/
def someOf (atEnd : Bool) : Utility := fun t c =>
  withOptions "qvzfF" "nc" 1 (fun t c g =>
    let chosen : Except Text Portion :=
      match g.options.find? fun o => o.1 = 'n' ∨ o.1 = 'c' with
      | none => .ok {}
      | some (l, v) =>
        match portion? (l = 'c') v with
        | some p => .ok p
        | none => .error (c.name ++ ": invalid number of ".toList ++ (if l = 'c' then "bytes" else "lines").toList
            ++ ": ".toList ++ quoted v)
    match chosen with
    | .error words => Finished.complaint t words 1
    | .ok p =>
      let titled := (1 < g.files.length ∨ g.has 'v') ∧ !g.has 'q'
      (g.files.foldl (fun (r, isFirst) file =>
        let title : Text :=
          if titled then
            (if isFirst then [] else ['\n']) ++ "==> ".toList
              ++ (if file = ['-'] then "standard input".toList else file) ++ " <==\n".toList
          else []
        match content t c file with
        | .ok b =>
          let part := if p.bytes then p.choose atEnd b else (p.choose atEnd (linesOf b)).flatten
          (Finished.say r (Text.bytes title ++ part), false)
        | .error .isDirectory =>
          (Finished.complain (Finished.say r (Text.bytes title))
            (c.name ++ ": error reading ".toList ++ quoted file ++ ": ".toList ++ faultWords .isDirectory) 1, false)
        | .error f =>
          (Finished.complain r (c.name ++ ": cannot open ".toList ++ quoted file ++ " for reading: ".toList
            ++ faultWords f) 1, isFirst)) (({ tree := t : Finished }), true)).1)
    t { c with args := withNumber atEnd c.args }

def head : Utility := someOf false

def tail : Utility := someOf true

def wordCount (b : Bytes) : Nat :=
  let isSpace (x : UInt8) : Bool := (9 ≤ x && x ≤ 13) || x == 32
  (b.foldl (fun (n, inside) x => if isSpace x then (n, false) else (if inside then n else n + 1, true)) (0, false)).1

def wc : Utility := withOptions "lwcmL" "" 1 fun t c g =>
  let wanted := if g.options = [] then ['l', 'w', 'c'] else "lwmcL".toList.filter g.has
  let count (b : Bytes) (what : Char) : Nat :=
    match what with
    | 'l' => b.count 10
    | 'w' => wordCount b
    | 'L' => ((linesOf b).map fun l => (bare l).length).foldl max 0
    | _ => b.length
  let each := g.files.map fun file => (file, content t c file)
  let counts := each.filterMap fun (_, r) => r.toOption.map fun b => wanted.map (count b)
  let total := counts.foldl (fun s n => (s.zip n).map fun (a, b) => a + b) (wanted.map fun _ => 0)
  let sizes := each.filterMap fun (_, r) => r.toOption.map List.length
  let isOdd := g.files.contains ['-'] ∨ each.any fun (_, r) => r.toOption.isNone
  let width :=
    if wanted.length = 1 ∧ g.files.length = 1 then 1
    else max (Text.ofNat (sizes.foldl (· + ·) 0)).length (if isOdd then 7 else 1)
  let row (ns : List Nat) (name : Text) : Bytes :=
    Text.bytes (Text.join [' '] (ns.map (column width)) ++ (if name = [] then [] else ' ' :: name) ++ ['\n'])
  let r := each.foldl (fun r (file, b) =>
    let name := if g.operands = [] then [] else file
    match b with
    | .ok b => Finished.say r (row (wanted.map (count b)) name)
    | .error f =>
      let r := Finished.complain r (about c.name file f) 1
      if f = .isDirectory then r.say (row (wanted.map fun _ => 0) name) else r) { tree := t }
  if 1 < g.files.length then r.say (row total "total".toList) else r

def tac : Utility := withOptions "bs" "" 1 fun t c g =>
  let wrong (file : Text) (f : Tree.Fault) : Text :=
    c.name ++ ": failed to open ".toList ++ quoted file ++ " for reading: ".toList ++ faultWords f
  overFiles 1 wrong (fun _ b => (linesOf b).reverse.flatten) t c g.files

def rev : Utility := withOptions "" "" 1 fun t c g =>
  overFiles 1 (fun file f => c.name ++ ": cannot open ".toList ++ file ++ ": ".toList ++ faultWords f)
    (fun _ b => (linesOf b).flatMap fun l => (bare l).reverse ++ l.drop (bare l).length) t c g.files

/-- Shows files with numbers before the lines that are not empty. -/
def nl : Utility := withOptions "" "bw" 1 fun t c g =>
  let every := g.value? 'b' = some ['a']
  let lines := linesOf ((g.files.filterMap fun file => (content t c file).toOption).flatten)
  let r := g.files.foldl (fun r file =>
    match content t c file with
    | .ok _ => r
    | .error f => Finished.complain r (about c.name file f) 1) { tree := t }
  (lines.foldl (fun (r, n) l =>
    if bare l = [] ∧ !every then (Finished.say r (List.replicate 7 32 ++ [10]), n)
    else (Finished.say r (Text.bytes (column 6 n ++ ['\t']) ++ ended l), n + 1)) (r, 1)).1

def cmp : Utility := withOptions "sl" "" 2 fun t c g =>
  let read (file : Text) : Except Text Bytes := (content t c file).mapError fun f => about c.name file f
  let say (r : Finished) (words : Text) : Finished := if g.has 's' then r else r.say (Text.bytes (words ++ ['\n']))
  match g.operands with
  | [] => Finished.complaint t (withHint c.name "missing operand".toList) 2
  | a :: more =>
    let b := more.headD ['-']
    match read a, read b with
    | .error words, _ | _, .error words =>
      if g.has 's' then { tree := t, ending := .code 2 } else Finished.complaint t words 2
    | .ok x, .ok y =>
      let same := ((x.zip y).takeWhile fun (p, q) => p = q).length
      let line := (x.take same).count 10 + 1
      if x = y then { tree := t }
      else if same < x.length ∧ same < y.length then
        say (Finished.answer t false) (a ++ [' '] ++ b ++ " differ: char ".toList ++ Text.ofNat (same + 1)
          ++ ", line ".toList ++ Text.ofNat line)
      else
        let (short, part) := if x.length < y.length then (a, x) else (b, y)
        let isWhole := part.getLast? = some 10
        let place : Text :=
          if same = 0 then " which is empty".toList
          else " after byte ".toList ++ Text.ofNat same ++ ", ".toList ++ (if isWhole then [] else "in ".toList)
            ++ "line ".toList ++ Text.ofNat (if isWhole then line - 1 else line)
        if g.has 's' then Finished.answer t false
        else Finished.complaint t (c.name ++ ": EOF on ".toList ++ short ++ place) 1

def contentAt (t : Tree) (p : Place) : Bytes :=
  match t.get? p with
  | some (.file _ b) => b
  | _ => []

def tee : Utility := withOptions "aip" "" 1 fun t c g =>
  let write (r : Finished) (file : Text) : Finished :=
    match device? file with
    | some (some 2) => { r with written := r.written ++ [(complaints, c.input)] }
    | some (some 1) => r.say c.input
    | some _ => r
    | none =>
      match opened r.tree (newMode c) file with
      | .error f => r.complain (about c.name file f) 1
      | .ok (tree, p) =>
        { r with tree := fillAt tree p ((if g.has 'a' then contentAt tree p else []) ++ c.input) }
  let r := g.operands.foldl write { tree := t }
  { r with written := (results, c.input) :: r.written }

/-! ## Lines -/

def isBelow : Bytes → Bytes → Bool
  | _, [] => false
  | [], _ :: _ => true
  | a :: s, b :: t => if a = b then isBelow s t else a < b

/-- The number at the front of a line, in parts of a millionth. -/
def leadingNumber (l : Bytes) : Int :=
  let t := Text.decodeLossy l |>.dropWhile Text.isBlank
  let (negative, t) := match t with
    | '-' :: t => (true, t)
    | t => (false, t)
  let front := t.takeWhile Char.isDigit
  let back := match t.drop front.length with
    | '.' :: t => ((t.takeWhile Char.isDigit) ++ List.replicate 6 '0').take 6
    | _ => List.replicate 6 '0'
  let n : Int := ofDigits 10 (front ++ back)
  if negative then -n else n

def fieldsOf (separator : Option UInt8) (l : Bytes) : List Bytes :=
  match separator with
  | some s => go (fun _ x => x == s) true l
  | none => go (fun last x => (x == 32 || x == 9) && !(last == 32 || last == 9)) false l
where
  /-- Splits where the predicate on two neighbours holds; the separator is left out or stays. -/
  go (splits : UInt8 → UInt8 → Bool) (drops : Bool) (l : Bytes) : List Bytes :=
    let (done, last, _) := l.foldl (fun (done, last, before) x =>
      if splits before x ∧ (drops ∨ last ≠ []) then (done ++ [last], if drops then [] else [x], x)
      else (done, last ++ [x], x)) (([] : List Bytes), ([] : Bytes), (0 : UInt8))
    done ++ [last]

/-- The part of a line that a key of the form `2`, `2,3` or `2n` tells. -/
def keyOf (separator : Option UInt8) (key : Text) (l : Bytes) : Bytes :=
  let first := ofDigits 10 (key.takeWhile Char.isDigit)
  let fields := (fieldsOf separator l).drop (first - 1)
  let glue : Bytes := separator.toList
  let last := match (key.dropWhile (· ≠ ',')).drop 1 with
    | [] => none
    | t => some (ofDigits 10 (t.takeWhile Char.isDigit))
  (match last with
    | some n => fields.take (n + 1 - first)
    | none => fields).intersperse glue |>.flatten

def sort : Utility := withOptions "rnubfs" "kto" 2 fun t c g =>
  let read := g.files.map fun file => (file, content t c file)
  let wrong := read.findSome? fun (file, r) =>
    match r with
    | .ok _ => none
    | .error .isDirectory => some (c.name ++ ": read failed: ".toList ++ file ++ ": ".toList ++ faultWords .isDirectory)
    | .error f => some (c.name ++ ": cannot read: ".toList ++ file ++ ": ".toList ++ faultWords f)
  match wrong with
  | some words => Finished.complaint t words 2
  | none =>
    let key := g.value? 'k'
    let separator := (g.value? 't').bind fun s => (Text.bytes s).head?
    let numeric := g.has 'n' || key.any fun k => k.contains 'n'
    let reversed := g.has 'r' || key.any fun k => k.contains 'r'
    let upper (b : Bytes) : Bytes := if g.has 'f' then b.map fun x => if 97 ≤ x ∧ x ≤ 122 then x - 32 else x else b
    let keyed (l : Bytes) : Bytes := upper (match key with
      | some k => keyOf separator k l
      | none => l)
    let below (a b : Bytes) : Bool :=
      if numeric then leadingNumber (keyed a) < leadingNumber (keyed b) else isBelow (keyed a) (keyed b)
    let lines := (read.flatMap fun (_, r) => (linesOf (r.toOption.getD [])).map bare)
    let before (a b : Bytes) : Bool :=
      let (x, y) := if reversed then (b, a) else (a, b)
      if below x y then true
      else if below y x then false
      else if g.has 's' ∨ g.has 'u' then true
      else if g.has 'r' then !isBelow a b else !isBelow b a
    let sorted := lines.mergeSort before
    let sorted := if g.has 'u' then
        sorted.foldr (fun l ls => match ls with
          | m :: rest => if below l m ∨ below m l then l :: m :: rest else l :: rest
          | [] => [l]) []
      else sorted
    let out := sorted.flatMap (· ++ [10])
    match g.value? 'o' with
    | none => Finished.output t out
    | some file =>
      match writeFile t (newMode c) file out with
      | .ok tree => { tree }
      | .error f => Finished.complaint t (c.name ++ ": open failed: ".toList ++ file ++ ": ".toList ++ faultWords f) 2

def runsOf (same : Bytes → Bytes → Bool) (ls : List Bytes) : List (Bytes × Nat) :=
  ls.foldr (fun l rs => match rs with
    | (m, n) :: rest => if same l m then (l, n + 1) :: rest else (l, 1) :: (m, n) :: rest
    | [] => [(l, 1)]) []

/-- Shows each of the lines that follow one another once. -/
def uniq : Utility := withOptions "cdui" "" 1 fun t c g =>
  let file := g.operands.headD ['-']
  match content t c file with
  | .error f => Finished.complaint t (about c.name file f) 1
  | .ok b =>
    let lower (b : Bytes) : Bytes := if g.has 'i' then b.map fun x => if 65 ≤ x ∧ x ≤ 90 then x + 32 else x else b
    let runs := runsOf (fun a b => lower a == lower b) ((linesOf b).map bare)
    let kept := runs.filter fun r => (!g.has 'd' || 1 < r.2) && (!g.has 'u' || r.2 == 1)
    let out := kept.flatMap fun (l, n) => (if g.has 'c' then Text.bytes (column 7 n ++ [' ']) else []) ++ l ++ [10]
    match g.operands with
    | _ :: target :: _ =>
      match writeFile t (newMode c) target out with
      | .ok tree => { tree }
      | .error f => Finished.complaint t (about c.name target f) 1
    | _ => Finished.output t out

/-- The ranges of a list such as `1,3-5`; one without an end goes on. -/
def ranges? (t : Text) : Option (List (Nat × Option Nat)) :=
  (Text.splitOn ',' t).mapM fun piece =>
    let first := piece.takeWhile Char.isDigit
    let start := if first = [] then 1 else ofDigits 10 first
    match piece.drop first.length with
    | [] => if first = [] then none else some (start, some start)
    | '-' :: last =>
      if first = [] ∧ last = [] ∨ !last.all Char.isDigit then none
      else some (start, if last = [] then none else some (ofDigits 10 last))
    | _ => none

def rangeFault? (one many : Text) (value : Text) : Option (List (Nat × Option Nat)) → Option Text
  | none => some ("invalid ".toList ++ one ++ " value ".toList ++ quoted value)
  | some rs =>
    if rs.any fun r => r.1 = 0 ∨ r.2 = some 0 then some (many ++ " are numbered from 1".toList)
    else if rs.any fun r => r.2.any (· < r.1) then some "invalid decreasing range".toList
    else none

def inRanges (rs : List (Nat × Option Nat)) (n : Nat) : Bool := rs.any fun r => r.1 ≤ n && r.2.all (n ≤ ·)

def pick {α : Type} (rs : List (Nat × Option Nat)) (xs : List α) : List α :=
  (xs.zipIdx 1).filterMap fun (x, i) => if inRanges rs i then some x else none

/-- Shows parts of lines: some of their bytes or their fields. -/
def cut : Utility := withOptions "sn" "dfcb" 1 fun t c g =>
  let wrong (words : Text) : Finished := Finished.complaint t (withHint c.name words) 1
  let separator := Text.bytes ((g.value? 'd').getD ['\t'])
  let overLines (line : Bytes → Option Bytes) : Finished :=
    overFiles 1 (about c.name)
      (fun _ b => (linesOf b).flatMap fun l => ((line (bare l)).map (· ++ [10])).getD []) t c g.files
  match g.value? 'f', (g.value? 'c').or (g.value? 'b') with
  | none, none => wrong "you must specify a list of bytes, characters, or fields".toList
  | some _, some _ => wrong "only one list may be specified".toList
  | some value, none =>
    match ranges? value, rangeFault? "field".toList "fields".toList value (ranges? value) with
    | some rs, none =>
      if separator.length ≠ 1 then wrong "the delimiter must be a single character".toList
      else overLines fun l =>
        let fields := fieldsOf separator.head? l
        if fields.length = 1 then if g.has 's' then none else some l
        else some ((pick rs fields).intersperse separator).flatten
    | _, words => wrong (words.getD [])
  | none, some value =>
    let positions := "byte/character positions".toList
    match ranges? value, rangeFault? "byte".toList positions value (ranges? value) with
    | some rs, none => overLines fun l => some (pick rs l)
    | _, words => wrong (words.getD [])

def paste : Utility := withOptions "s" "d" 1 fun t c g =>
  let signs := (Text.bytes ((g.value? 'd').getD ['\t']))
  let sign (i : Nat) : Bytes := if signs = [] then [] else (signs[i % signs.length]?).toList
  let glue (ls : List Bytes) : Bytes :=
    (ls.zipIdx.flatMap fun (l, i) => (if i = 0 then [] else sign (i - 1)) ++ l) ++ [10]
  match g.files.find? fun file => !(content t c file).isOk with
  | some file =>
    match content t c file with
    | .error f => Finished.complaint t (about c.name file f) 1
    | .ok _ => { tree := t }
  | none =>
    let inputs := (g.files.filter (· = ['-'])).length
    let incoming := (linesOf c.input).map bare
    let (columns, _) := g.files.foldl (fun (done, i) file =>
      if file = ['-'] ∧ !g.has 's' then
        (done ++ [(incoming.zipIdx.filter fun x => x.2 % inputs = i).map Prod.fst], i + 1)
      else (done ++ [(linesOf ((content t c file).toOption.getD [])).map bare], i)) (([] : List (List Bytes)), 0)
    if g.has 's' then Finished.output t (columns.flatMap glue)
    else
      let rows := (columns.map List.length).foldl max 0
      Finished.output t ((List.range rows).flatMap fun i => glue (columns.map fun ls => (ls[i]?).getD []))

/-! ## Bytes -/

/-- The bytes of a set of `tr` with its escapes read, each with whether it was escaped. -/
def setBytes : (fuel : Nat) → Text → List (UInt8 × Bool)
  | 0, _ => []
  | fuel + 1, t =>
    match t with
    | [] => []
    | '\\' :: c :: rest =>
      if isOctal c ∨ (letter? c).isSome then
        (escape (c :: rest)).1.map (·, true) ++ setBytes fuel (escape (c :: rest)).2
      else (Text.bytes [c]).map (·, true) ++ setBytes fuel rest
    | c :: rest => (Text.bytes [c]).map (·, false) ++ setBytes fuel rest

def classOf? (name : Bytes) : Option Bytes :=
  (CharSet.named? (Text.decodeLossy name)).map fun s =>
    s.flatMap fun (a, b) => (List.range (b.toNat + 1 - a.toNat)).map fun i => UInt8.ofNat (a.toNat + i)

/-- A set of `tr` as its members in order; a byte that is to fill up the set comes with them. -/
def setMembers : (fuel : Nat) → List (UInt8 × Bool) → Except Text (Bytes × Option UInt8)
  | 0, _ => .ok ([], none)
  | fuel + 1, bs => do
    match bs with
    | [] => return ([], none)
    | (91, false) :: (58, false) :: rest =>
      let name := (rest.takeWhile fun b => b.1 ≠ 58).map Prod.fst
      match rest.drop name.length, classOf? name with
      | (58, _) :: (93, _) :: rest, some s =>
        let (more, filler) ← setMembers fuel rest
        return (s ++ more, filler)
      | _, _ =>
        let (more, filler) ← setMembers fuel ((58, false) :: rest)
        return (91 :: more, filler)
    | (91, false) :: (b, _) :: (42, false) :: (93, false) :: rest =>
      let (more, _) ← setMembers fuel rest
      return (more, some b)
    | (a, _) :: (45, false) :: (b, _) :: rest =>
      if b < a then
        throw ("range-endpoints of ".toList ++ quoted (Text.decodeLossy [a, 45, b])
          ++ " are in reverse collating sequence order".toList)
      let (more, filler) ← setMembers fuel rest
      return ((List.range (b.toNat + 1 - a.toNat)).map (fun i => UInt8.ofNat (a.toNat + i)) ++ more, filler)
    | (a, _) :: rest =>
      let (more, filler) ← setMembers fuel rest
      return (a :: more, filler)

def setOf (arg : Text) : Except Text (Bytes × Option UInt8) :=
  let bs := setBytes (arg.length + 1) arg
  setMembers (bs.length + 1) bs

def squeeze (inSet : UInt8 → Bool) (b : Bytes) : Bytes :=
  b.foldr (fun x r => match r with
    | y :: _ => if x = y ∧ inSet x then r else x :: r
    | [] => [x]) []

/-- Changes bytes for others, takes them out, or keeps one of several. -/
def tr : Utility := withOptions "cCdst" "" 1 fun t c g =>
  let wrong (words : Text) : Finished := Finished.complaint t (withHint c.name words) 1
  let complement (s : Bytes) : Bytes :=
    if g.has 'c' ∨ g.has 'C' then ((List.range 256).map UInt8.ofNat).filter (!s.contains ·) else s
  let result : Except Text Bytes := do
    match g.operands with
    | [] => return []
    | a :: more =>
      let (taken, _) ← setOf a
      let taken := complement taken
      let (given, filler) ← setOf (more.headD [])
      if g.has 'd' then
        let left := c.input.filter (!taken.contains ·)
        return if g.has 's' then squeeze given.contains left else left
      else if more = [] then return squeeze taken.contains c.input
      else
        let last := filler.or given.getLast?
        let size := if g.has 't' then given.length else taken.length
        let change (b : UInt8) : UInt8 :=
          match (taken.take size).reverse.idxOf? b with
          | some i =>
            let j := (taken.take size).length - 1 - i
            (given[j]?).getD (last.getD b)
          | none => b
        let out := c.input.map change
        return if g.has 's' then squeeze (fun b => given.contains b || last == some b) out else out
  match g.operands with
  | [] => missingOperand t c
  | [a] =>
    if g.has 'd' ∧ g.has 's' then
      wrong ("missing operand after ".toList ++ quoted a
        ++ "\nTwo strings must be given when both deleting and squeezing repeats.".toList)
    else if !g.has 'd' ∧ !g.has 's' then
      wrong ("missing operand after ".toList ++ quoted a ++ "\nTwo strings must be given when translating.".toList)
    else match result with
      | .ok b => Finished.output t b
      | .error words => Finished.complaint t (c.name ++ ": ".toList ++ words) 1
  | _ :: b :: more =>
    if g.has 'd' ∧ !g.has 's' then
      wrong ("extra operand ".toList ++ quoted b
        ++ "\nOnly one string may be given when deleting without squeezing repeats.".toList)
    else match more with
      | x :: _ => wrong ("extra operand ".toList ++ quoted x)
      | [] =>
        match result with
        | .ok b => Finished.output t b
        | .error words => Finished.complaint t (c.name ++ ": ".toList ++ words) 1

end LanguageRoster.Shell.Utility
