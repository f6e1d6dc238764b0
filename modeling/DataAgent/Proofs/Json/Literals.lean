import DataAgent.Proofs.Json.Reading
import Mathlib

/-!
# Proofs — Json — Literals

The smallest parts of a JSON text as its grammar has them: blanks, the insides of strings, with escapes
(`Literal`), and numbers with fraction and exponent (`NumberText`). None of these types holds anything
that the grammar does not allow, and each says by itself what it spells: the characters of a string,
unless a surrogate has no partner (`Literal.read`), and the number, unless it is out of range
(`NumberText.number?`).

The reader takes each of them to its end and makes of it what it spells (`Node.scan_literal`,
`Node.value_number`).
-/

namespace DataAgent

/-! ### Blanks -/

/-- A blank between the parts of a text. -/
inductive Blank
  | space
  | newline
  | tab
  | carriageReturn
  deriving DecidableEq, Repr

namespace Blank

def char : Blank → Char
  | .space          => ' '
  | .newline        => '\n'
  | .tab            => '\t'
  | .carriageReturn => '\r'

/-- Blanks in a row. -/
def text (bs : List Blank) : Text := bs.map fun b => .char b.char

end Blank

namespace Node

theorem skipBlanks_blanks (bs : List Blank) (text : Text) :
    skipBlanks (Blank.text bs ++ text) = skipBlanks text := by
  induction bs with
  | nil => rfl
  | cons b bs ih => cases b <;> simpa [Blank.text, Blank.char, skipBlanks] using ih

theorem skipBlanks_blanks_char (bs : List Blank) {c : Char} (h : c ∉ blanks) (text : Text) :
    skipBlanks (Blank.text bs ++ .char c :: text) = .char c :: text := by
  rw [skipBlanks_blanks, skipBlanks_char h]

theorem delimited_blanks (bs : List Blank) {text : Text} (h : Delimited text) :
    Delimited (Blank.text bs ++ text) := by
  cases bs with
  | nil => exact h
  | cons b bs => cases b <;> simp [Blank.text, Blank.char, Delimited, blanks]

end Node

/-! ### String literals -/

/-- A hexadecimal digit; a letter in either case. -/
structure HexDigit where
  value : Fin 16
  upper : Bool := false

def HexDigit.char (d : HexDigit) : Char :=
  if d.upper then (Nat.digitChar d.value).toUpper else Nat.digitChar d.value

/-- The escapes of one letter. -/
inductive ShortEscape
  | quote
  | backslash
  | slash
  | backspace
  | formFeed
  | newline
  | carriageReturn
  | tab

namespace ShortEscape

/-- What stands after the backslash. -/
def letter : ShortEscape → Char
  | .quote          => '"'
  | .backslash      => '\\'
  | .slash          => '/'
  | .backspace      => 'b'
  | .formFeed       => 'f'
  | .newline        => 'n'
  | .carriageReturn => 'r'
  | .tab            => 't'

/-- What it stands for. -/
def char : ShortEscape → Char
  | .quote          => '"'
  | .backslash      => '\\'
  | .slash          => '/'
  | .backspace      => '\x08'
  | .formFeed       => '\x0c'
  | .newline        => '\n'
  | .carriageReturn => '\r'
  | .tab            => '\t'

end ShortEscape

/-- One element of a string literal: a character that stands for itself, an escape of one letter, or
the four digits of a code unit. -/
inductive Glyph
  | plain (c : Char) (h : c ≠ '"' ∧ c ≠ '\\' ∧ 0x20 ≤ c.toNat)
  | short (e : ShortEscape)
  | unit (a b c d : HexDigit)

namespace Glyph

def text : Glyph → Text
  | .plain c _    => [.char c]
  | .short e      => [.char '\\', .char e.letter]
  | .unit a b c d =>
    [.char '\\', .char 'u', .char a.char, .char b.char, .char c.char, .char d.char]

/-- The code unit of four digits. -/
def codeUnit (a b c d : HexDigit) : Nat :=
  ((a.value * 16 + b.value) * 16 + c.value) * 16 + d.value

/-- A character, escaped if it has to be. -/
def ofChar (c : Char) : Glyph :=
  if hquote : c = '"' then .short .quote
  else if hback : c = '\\' then .short .backslash
  else if c = '\x08' then .short .backspace
  else if c = '\x0c' then .short .formFeed
  else if c = '\n' then .short .newline
  else if c = '\r' then .short .carriageReturn
  else if c = '\t' then .short .tab
  else if h : 0x20 ≤ c.toNat then .plain c ⟨hquote, hback, h⟩
  else .unit { value := 0 } { value := 0 } { value := .ofNat 16 (c.toNat / 16) }
    { value := .ofNat 16 (c.toNat % 16) }

/-- It is escaped as the compact text of a document has it. -/
theorem text_ofChar (c : Char) : (ofChar c).text = (Json.escape c).map .char := by
  unfold ofChar Json.escape
  split_ifs
  · rfl
  · rfl
  · rfl
  · rfl
  · rfl
  · rfl
  · rfl
  · omega
  · rfl
  · have hhigh : c.toNat / 16 % 16 = c.toNat / 16 := Nat.mod_eq_of_lt (by omega)
    simp only [text, HexDigit.char, Fin.val_ofNat, hhigh, Nat.mod_mod, Bool.false_eq_true, if_false]
    rfl
  · omega

end Glyph

/-- The inside of a string literal. -/
abbrev Literal := List Glyph

namespace Literal

/-- The literal after its opening quote. -/
def text (l : Literal) : Text := l.flatMap Glyph.text ++ [.char '"']

/-- The characters of a literal and whether all its surrogates are paired, after a lead that waits for
its trail, if there is one. A surrogate without a partner gives no character. -/
def read : Option Nat → Literal → List Char × Bool
  | lead, [] => ([], lead.isNone)
  | lead, .plain c _ :: more => (c :: (read none more).1, lead.isNone && (read none more).2)
  | lead, .short e :: more => (e.char :: (read none more).1, lead.isNone && (read none more).2)
  | some lead, .unit a b c d :: more =>
    let n := Glyph.codeUnit a b c d
    if Node.isTrail n then
      (Char.ofNat (0x10000 + (lead - 0xD800) * 0x400 + (n - 0xDC00)) :: (read none more).1,
        (read none more).2)
    else ((read (if Node.isLead n then some n else none) more).1, false)
  | none, .unit a b c d :: more =>
    let n := Glyph.codeUnit a b c d
    if Node.isTrail n then ((read none more).1, false)
    else if Node.isLead n then read (some n) more
    else (Char.ofNat n :: (read none more).1, (read none more).2)

/-- The characters that can be read. -/
def chars (l : Literal) : String := String.ofList (read none l).1

/-- All surrogates are paired. -/
def paired (l : Literal) : Bool := (read none l).2

/-- The literal is one of the string `s`. -/
def Spells (l : Literal) (s : String) : Prop := l.paired = true ∧ l.chars = s

/-- A literal of a string. -/
def ofString (s : String) : Literal := s.toList.map Glyph.ofChar

theorem read_ofChar (c : Char) (l : Literal) :
    read none (.ofChar c :: l) = (c :: (read none l).1, (read none l).2) := by
  unfold Glyph.ofChar
  split_ifs with hquote hback hb hf hn hr ht hplain
  case neg =>
    -- What is left are controls, which are no surrogates.
    have hunit : Glyph.codeUnit { value := 0 } { value := 0 } { value := .ofNat 16 (c.toNat / 16) }
        { value := .ofNat 16 (c.toNat % 16) } = c.toNat := by
      simp only [Glyph.codeUnit, Fin.val_zero, Fin.val_ofNat]
      omega
    have htrail : Node.isTrail c.toNat = false := by simp [Node.isTrail]; omega
    have hlead : Node.isLead c.toNat = false := by simp [Node.isLead]; omega
    simp only [read, hunit, htrail, hlead, Bool.false_eq_true, if_false, Char.ofNat_toNat]
  all_goals simp [read, ShortEscape.char, *]

/-- Every string has a literal. -/
theorem spells_ofString (s : String) : (ofString s).Spells s := by
  have hread : ∀ cs : List Char, read none (cs.map Glyph.ofChar) = (cs, true) := by
    intro cs
    induction cs with
    | nil => rfl
    | cons c cs ih => rw [List.map_cons, read_ofChar, ih]
  constructor
  · rw [paired, ofString, hread]
  · rw [chars, ofString, hread, String.ofList_toList]

end Literal

namespace Node

theorem hexDigit?_char (d : HexDigit) : hexDigit? (.char d.char) = some d.value.val := by
  have hall : ∀ (v : Fin 16) (u : Bool), hexDigit? (.char (HexDigit.char ⟨v, u⟩)) = some v.val := by
    decide
  exact hall d.value d.upper

theorem hex4?_char (a b c d : HexDigit) :
    hex4? (.char a.char) (.char b.char) (.char c.char) (.char d.char) =
      some (Glyph.codeUnit a b c d) := by
  simp [hex4?, hexDigit?_char, Glyph.codeUnit]

theorem shortEscape?_letter (e : ShortEscape) : shortEscape? (.char e.letter) = some e.char := by
  cases e <;> rfl

theorem letter_ne_u (e : ShortEscape) : e.letter ≠ 'u' := by
  cases e <;> decide

namespace Scanning

/-- The literal that a state of the scanner comes to: its characters, and whether there is nothing to
object to. -/
def outcome (s : Scanning) (l : Literal) : List Char × Bool :=
  (s.read.reverse ++ (Literal.read s.lead l).1, s.flaw.isNone && (Literal.read s.lead l).2)

theorem outcome_unpaired (s : Scanning) (text : Text) (c : Char) {g : Glyph} {l : Literal}
    (hg : Literal.read s.lead (g :: l) =
      (c :: (Literal.read none l).1, s.lead.isNone && (Literal.read none l).2)) :
    ((s.unpaired text).push c).outcome l = s.outcome (g :: l) := by
  cases hlead : s.lead <;> cases hflaw : s.flaw <;>
    simp_all [outcome, unpaired, push, object]

theorem outcome_unit (s : Scanning) (a b c d : HexDigit) (rest : Text) (l : Literal) :
    (s.unit (Glyph.codeUnit a b c d) rest).outcome l = s.outcome (.unit a b c d :: l) := by
  cases hlead : s.lead <;> cases hflaw : s.flaw <;>
    simp only [unit, outcome, hlead, hflaw, Literal.read] <;> split_ifs <;>
    simp_all [push, object]

end Scanning

/-- One element of a literal takes the scanner to a state with the same outcome. -/
theorem scan_glyph (s : Scanning) (g : Glyph) (rest : Text) :
    ∃ s' : Scanning, scan s (g.text ++ rest) = scan s' rest ∧ s'.stray = s.stray ∧
      ∀ l, s'.outcome l = s.outcome (g :: l) := by
  cases g with
  | plain c h =>
    obtain ⟨hquote, hback, hcontrol⟩ := h
    refine ⟨(s.unpaired (.char c :: rest)).push c, ?_, ?_, fun l => ?_⟩
    · have hnot : ¬c.toNat < 0x20 := by omega
      simp [Glyph.text, scan, hback, hnot]
    · simp only [Scanning.unpaired, Scanning.push, Scanning.object]
      split <;> rfl
    · exact s.outcome_unpaired _ c rfl
  | short e =>
    refine ⟨(s.unpaired (.char e.letter :: rest)).push e.char, ?_, ?_, fun l => ?_⟩
    · rw [Glyph.text, List.cons_append, List.cons_append, List.nil_append, scan]
      · simp [shortEscape?_letter]
      · simp [letter_ne_u]
      · simp [letter_ne_u]
    · simp only [Scanning.unpaired, Scanning.push, Scanning.object]
      split <;> rfl
    · exact s.outcome_unpaired _ e.char rfl
  | unit a b c d =>
    refine ⟨s.unit (Glyph.codeUnit a b c d) rest, ?_, ?_, s.outcome_unit a b c d rest⟩
    · simp [Glyph.text, scan, hex4?_char]
    · simp only [Scanning.unit, Scanning.push, Scanning.object]
      split <;> split_ifs <;> rfl

theorem scan_literal (l : Literal) {s : Scanning} (hs : s.stray = false) (rest : Text) :
    ∃ key : Key, scan s (l.text ++ rest) = .closed key rest ∧
      key.text = String.ofList (s.outcome l).1 ∧ key.flaw.isNone = (s.outcome l).2 := by
  induction l generalizing s with
  | nil =>
    refine ⟨{ text := String.ofList (s.unpaired (.char '"' :: rest)).read.reverse,
              flaw := (s.unpaired (.char '"' :: rest)).flaw }, ?_, ?_, ?_⟩
    · have hstray : (s.unpaired (.char '"' :: rest)).stray = false := by
        simp only [Scanning.unpaired, Scanning.object]
        split <;> exact hs
      simp [Literal.text, scan, Scanning.close, hstray]
    · cases hlead : s.lead <;>
        simp [Scanning.outcome, Scanning.unpaired, Scanning.object, Literal.read, hlead]
    · cases hlead : s.lead <;> cases hflaw : s.flaw <;>
        simp [Scanning.outcome, Scanning.unpaired, Scanning.object, Literal.read, hlead, hflaw]
  | cons g l ih =>
    obtain ⟨s', hscan, hstray, houtcome⟩ := scan_glyph s g (Literal.text l ++ rest)
    obtain ⟨key, hkey, htext, hflaw⟩ := ih (hstray.trans hs)
    refine ⟨key, ?_, ?_, ?_⟩
    · rw [← hkey, ← hscan]
      simp [Literal.text]
    · rw [htext, houtcome]
    · rw [hflaw, houtcome]

end Node

/-! ### Numbers -/

/-- One digit or more. -/
structure Digits where
  first : Fin 10
  more : List (Fin 10)

namespace Digits

def chars (ds : Digits) : List Char := (ds.first :: ds.more).map fun d => Nat.digitChar d.val

def values (ds : Digits) : List Nat := (ds.first :: ds.more).map fun d => d.val

end Digits

/-- The exponent of a number: its mark in either case, and its sign if it has one. -/
structure ExponentText where
  upper : Bool := false
  sign : Option Bool := none
  digits : Digits

namespace ExponentText

def text (e : ExponentText) : Text :=
  .char (if e.upper then 'E' else 'e') ::
    (e.sign.elim [] (fun negative => [.char (if negative then '-' else '+')]) ++
      e.digits.chars.map .char)

def value (e : ExponentText) : Int :=
  if e.sign = some true then -(Node.natural e.digits.values : Int) else Node.natural e.digits.values

end ExponentText

/-- A number. Its whole part starts with zero only if it is zero. -/
structure NumberText where
  negative : Bool := false
  whole : Digits
  fraction : Option Digits := none
  exponent : Option ExponentText := none
  canonical : whole.first = 0 → whole.more = []

namespace NumberText

/-- The fraction and the exponent. -/
def tail (n : NumberText) : Text :=
  n.fraction.elim [] (fun ds => .char '.' :: ds.chars.map .char) ++ n.exponent.elim [] ExponentText.text

/-- The number after its sign. -/
def unsignedText (n : NumberText) : Text := n.whole.chars.map .char ++ n.tail

def text (n : NumberText) : Text := (if n.negative then [.char '-'] else []) ++ n.unsignedText

/-- The decimal that is written. -/
def decimal (n : NumberText) : Decimal where
  negative := n.negative
  digits := Node.natural (n.whole.values ++ n.fraction.elim [] Digits.values)
  exponent := n.exponent.elim 0 ExponentText.value - (n.fraction.elim [] Digits.values).length

/-- The double of a decimal, if it is in range. -/
def double? (x : Decimal) : Option Number := x.nearest.map .double

/-- A whole number is an integer if it has sixty-four bits, with a sign or without. -/
def whole? (negative : Bool) (n : Nat) : Option Number :=
  if !negative && n < Nat.pow 2 64 then some (.int n)
  else if negative && 0 < n && n ≤ Nat.pow 2 63 then some (.int (-n))
  else double? { negative, digits := n }

/-- The number that is written, if it is in range. -/
def number? (n : NumberText) : Option Number :=
  if n.fraction.isNone && n.exponent.isNone then whole? n.negative (Node.natural n.whole.values)
  else double? n.decimal

end NumberText

namespace Node

/-- What the reader makes of a number. -/
def numberNode (number? : Option Number) (rest : Text) : Node :=
  number?.elim (.flawed ⟨.numberOutOfRange, { rest }⟩ (.num (.int 0))) .num

theorem double_eq (x : Decimal) (rest : Text) :
    double x rest = (numberNode (NumberText.double? x) rest, some rest) := by
  unfold double NumberText.double? numberNode
  cases x.nearest <;> rfl

theorem whole_eq (negative : Bool) (n : Nat) (rest : Text) :
    whole negative n rest = (numberNode (NumberText.whole? negative n) rest, some rest) := by
  unfold whole NumberText.whole?
  split_ifs
  · rfl
  · rfl
  · exact double_eq _ rest

theorem isDigit_digits (ds : Digits) : ∀ c ∈ ds.chars, c.isDigit = true := by
  intro c hc
  obtain ⟨d, -, rfl⟩ := List.mem_map.1 hc
  have hall : ∀ d : Fin 10, (Nat.digitChar d).isDigit = true := by decide
  exact hall d

theorem values_digits (ds : Digits) : ds.chars.map (fun c => c.toNat - '0'.toNat) = ds.values := by
  have hall : ∀ d : Fin 10, (Nat.digitChar d).toNat - '0'.toNat = d.val := by decide
  simp only [Digits.chars, Digits.values, List.map_map]
  exact List.map_congr_left fun d _ => hall d

theorem digits_digits (ds : Digits) {rest : Text} (h : digits rest = ([], rest)) :
    digits (ds.chars.map .char ++ rest) = (ds.values, rest) := by
  rw [digits_append (isDigit_digits ds) h, values_digits]

theorem exponent_text (x : Decimal) (e : ExponentText) {rest : Text} (h : Delimited rest) :
    exponent x (e.text.tail ++ rest) = double { x with exponent := x.exponent + e.value } rest := by
  have hdigits := digits_digits e.digits (digits_delimited h)
  obtain ⟨upper, sign, ds⟩ := e
  rcases sign with _ | _ | _
  · -- Without a sign the first digit is neither of the two.
    obtain ⟨c, cs, hchars, hplus, hminus⟩ : ∃ c cs, ds.chars = c :: cs ∧ c ≠ '+' ∧ c ≠ '-' := by
      have hall : ∀ d : Fin 10, Nat.digitChar d ≠ '+' ∧ Nat.digitChar d ≠ '-' := by decide
      exact ⟨_, _, rfl, hall ds.first⟩
    rw [hchars, List.map_cons, List.cons_append] at hdigits
    simp [exponent, ExponentText.text, ExponentText.value, hchars, hplus, hminus, hdigits, Digits.values]
  · simp [exponent, ExponentText.text, ExponentText.value, hdigits, Digits.values]
  · simp [exponent, ExponentText.text, ExponentText.value, hdigits, Digits.values]

/-- A fraction, an exponent or what follows the number does not go on with the digits. -/
theorem digits_tail (n : NumberText) {rest : Text} (h : Delimited rest) :
    digits (n.tail ++ rest) = ([], n.tail ++ rest) := by
  cases hfraction : n.fraction with
  | some ds => simp [NumberText.tail, hfraction, digits, digit?]
  | none =>
    cases hexponent : n.exponent with
    | some e =>
      cases hupper : e.upper <;>
        simp [NumberText.tail, hfraction, hexponent, ExponentText.text, hupper, digits, digit?]
    | none => simpa [NumberText.tail, hfraction, hexponent] using digits_delimited h

/-- An exponent starts with its mark. -/
theorem exists_mark (e : ExponentText) :
    ∃ c, (c = 'e' ∨ c = 'E') ∧ e.text = .char c :: e.text.tail := by
  cases hupper : e.upper
  · exact ⟨'e', .inl rfl, by simp [ExponentText.text, hupper]⟩
  · exact ⟨'E', .inr rfl, by simp [ExponentText.text, hupper]⟩

theorem afterWhole_exponent (negative : Bool) (ds : List Nat) (e : ExponentText) {rest : Text}
    (h : Delimited rest) :
    afterWhole negative ds (e.text ++ rest) =
      double { negative, digits := natural ds, exponent := e.value } rest := by
  obtain ⟨c, hc, htext⟩ := exists_mark e
  have hpoint : c ≠ '.' := by rcases hc with rfl | rfl <;> decide
  rw [htext, List.cons_append]
  simp [afterWhole, hpoint, hc, exponent_text _ e h]

theorem afterWhole_fraction (negative : Bool) (ds : List Nat) (fs : Digits) {rest : Text}
    (h : Delimited rest) :
    afterWhole negative ds (.char '.' :: (fs.chars.map .char ++ rest)) =
      double { negative, digits := natural (ds ++ fs.values), exponent := -(fs.values.length : Int) }
        rest := by
  have hdigits := digits_digits fs (digits_delimited h)
  simp only [Digits.values, List.map_cons] at hdigits ⊢
  simp only [afterWhole, is_char, decide_true, if_true, hdigits]
  cases rest with
  | nil => rfl
  | cons s rest => rcases h.cases with rfl | rfl | rfl | rfl | rfl | rfl | rfl <;> rfl

theorem afterWhole_both (negative : Bool) (ds : List Nat) (fs : Digits) (e : ExponentText)
    {rest : Text} (h : Delimited rest) :
    afterWhole negative ds (.char '.' :: (fs.chars.map .char ++ (e.text ++ rest))) =
      double { negative, digits := natural (ds ++ fs.values),
               exponent := -(fs.values.length : Int) + e.value } rest := by
  obtain ⟨c, hc, htext⟩ := exists_mark e
  have hstop : digits (e.text ++ rest) = ([], e.text ++ rest) := by
    rw [htext]
    rcases hc with rfl | rfl <;> simp [digits, digit?]
  have hdigits := digits_digits fs hstop
  simp only [Digits.values, List.map_cons] at hdigits ⊢
  simp only [afterWhole, is_char, decide_true, if_true, hdigits]
  rw [htext, List.cons_append]
  simp [hc, exponent_text _ e h]

/-- A number is read as the number it spells, if that is in range. -/
theorem unsigned_text (n : NumberText) {rest : Text} (h : Delimited rest) :
    unsigned n.negative (n.unsignedText ++ rest) = (numberNode n.number? rest, some rest) := by
  have hwhole : unsigned n.negative (n.unsignedText ++ rest) =
      afterWhole n.negative n.whole.values (n.tail ++ rest) := by
    rw [NumberText.unsignedText, List.append_assoc]
    refine unsigned_of_digits (digits_digits n.whole (digits_tail n h)) (by simp [Digits.values]) ?_
    -- A whole part that starts with zero ends there.
    intro d more hmore
    simp only [Digits.values, List.map_cons, List.cons.injEq] at hmore
    have hnil := n.canonical (Fin.ext hmore.1)
    simp [hnil] at hmore
  rw [hwhole]
  cases hfraction : n.fraction with
  | none =>
    cases hexponent : n.exponent with
    | none =>
      simp [NumberText.tail, NumberText.number?, hfraction, hexponent, afterWhole_delimited h, whole_eq]
    | some e =>
      simp [NumberText.tail, NumberText.number?, NumberText.decimal, hfraction, hexponent,
        afterWhole_exponent _ _ e h, double_eq]
  | some fs =>
    cases hexponent : n.exponent with
    | none =>
      simp [NumberText.tail, NumberText.number?, NumberText.decimal, hfraction, hexponent,
        afterWhole_fraction _ _ fs h, double_eq]
    | some e =>
      have hsum : -(fs.values.length : Int) + e.value = e.value - fs.values.length := by omega
      simp [NumberText.tail, NumberText.number?, NumberText.decimal, hfraction, hexponent,
        afterWhole_both _ _ fs e h, double_eq, hsum]

theorem value_number (fuel level : Nat) (n : NumberText) {rest : Text} (h : Delimited rest) :
    value (fuel + 1) level (n.text ++ rest) = (numberNode n.number? rest, some rest) := by
  have hread := unsigned_text n h
  cases hnegative : n.negative with
  | true =>
    rw [hnegative] at hread
    simpa [NumberText.text, hnegative, value, skipBlanks] using hread
  | false =>
    have hdigit : (Nat.digitChar n.whole.first).isDigit = true :=
      isDigit_digits n.whole _ (List.mem_cons_self ..)
    rw [hnegative, NumberText.unsignedText, Digits.chars, List.map_cons, List.map_cons] at hread
    rw [NumberText.text, hnegative, if_neg (by decide), List.nil_append, NumberText.unsignedText,
      Digits.chars, List.map_cons, List.map_cons]
    exact (value_digit fuel level hdigit _).trans hread

end Node

end DataAgent
