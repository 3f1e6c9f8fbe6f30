import LanguageRoster.Text.Basic

/-!
# The bytes of a text

* `Text.bytes`, `Text.decode?` : a text as UTF-8 bytes and back; `decode?_eq_some_iff` says that each undoes the other
* `Text.decodeLossy` : every byte string has a reading, in which each ill-formed piece is one replacement character
-/

namespace LanguageRoster

set_option autoImplicit false

abbrev Bytes := List UInt8

namespace Text

def bytes (t : Text) : Bytes := t.flatMap String.utf8EncodeChar

@[simp] theorem bytes_append (s t : Text) : bytes (s ++ t) = bytes s ++ bytes t := by simp [bytes]

@[simp] theorem length_bytes (t : Text) : (bytes t).length = t.size := by
  induction t with
  | nil => rfl
  | cons c t ih => simp_all [bytes, size]

def decode? (b : Bytes) : Option Text := (String.fromUTF8? b.toByteArray).map String.toList

theorem toUTF8_ofList (t : Text) : (String.ofList t).toUTF8 = (bytes t).toByteArray := rfl

@[simp] theorem decode?_bytes (t : Text) : decode? (bytes t) = some t := by
  have h : (String.ofList t).toUTF8.IsValidUTF8 := (String.ofList t).isValidUTF8
  rw [decode?, ← toUTF8_ofList, String.fromUTF8?, dif_pos h]
  exact congrArg some String.toList_ofList

theorem bytes_inj {s t : Text} (h : bytes s = bytes t) : s = t := by
  have hd := congrArg decode? h
  rw [decode?_bytes, decode?_bytes] at hd
  exact Option.some.inj hd

theorem eq_bytes_of_decode? {b : Bytes} {t : Text} (h : decode? b = some t) : b = bytes t := by
  rw [decode?, String.fromUTF8?] at h
  split at h
  · next hv =>
    have ht : String.ofList t = String.fromUTF8 b.toByteArray hv := by
      rw [← Option.some.inj h, String.ofList_toList]
    have hb : (bytes t).toByteArray = b.toByteArray := by
      rw [← toUTF8_ofList, ht]
      rfl
    have hd := congrArg (fun x => x.data.toList) hb
    simpa [List.data_toByteArray] using hd.symm
  · exact absurd h (by simp)

theorem decode?_eq_some_iff {b : Bytes} {t : Text} : decode? b = some t ↔ b = bytes t :=
  ⟨eq_bytes_of_decode?, fun h => h ▸ decode?_bytes t⟩

/-! ## Ill-formed bytes -/

/-- What the reader of UTF-8 waits for: nothing, or `count + 1` more bytes of a character, the next one between `low`
and `high`, with `bits` read so far. -/
inductive Pending where
  | idle
  | within (count : Nat) (low high : UInt8) (bits : Nat)

/-- What a first byte announces; the ranges of the second byte shut out overlong forms and surrogates. -/
def Pending.ofLead (b : UInt8) : Option Pending :=
  if b < 0xC2 then none
  else if b < 0xE0 then some (.within 0 0x80 0xBF (b.toNat % 32))
  else if b = 0xE0 then some (.within 1 0xA0 0xBF 0)
  else if b = 0xED then some (.within 1 0x80 0x9F 13)
  else if b < 0xF0 then some (.within 1 0x80 0xBF (b.toNat % 16))
  else if b = 0xF0 then some (.within 2 0x90 0xBF 0)
  else if b < 0xF4 then some (.within 2 0x80 0xBF (b.toNat % 8))
  else if b = 0xF4 then some (.within 2 0x80 0x8F 4)
  else none

def replacement : Char := Char.ofNat 0xFFFD

def startByte (b : UInt8) : Text × Pending :=
  if b < 0x80 then ([Char.ofNat b.toNat], .idle)
  else match Pending.ofLead b with
    | some p => ([], p)
    | none => ([replacement], .idle)

/-- Reads one byte: the characters that are now complete, and what is pending. -/
def Pending.next (b : UInt8) : Pending → Text × Pending
  | .idle => startByte b
  | .within count low high bits =>
    if low ≤ b ∧ b ≤ high then
      let bits := bits * 64 + b.toNat % 64
      match count with
      | 0 => ([Char.ofNat bits], .idle)
      | count + 1 => ([], .within count 0x80 0xBF bits)
    else
      let (cs, p) := startByte b
      (replacement :: cs, p)

/-- Reads all bytes from a pending state; a character cut off at the end is ill-formed. -/
def decodeFrom : Pending → Bytes → Text
  | .idle, [] => []
  | .within .., [] => [replacement]
  | p, b :: more =>
    let (cs, p) := p.next b
    cs ++ decodeFrom p more

/-- The text that the bytes hold, with a replacement character for each ill-formed piece. -/
def decodeLossy (b : Bytes) : Text := decodeFrom .idle b

end Text

end LanguageRoster
