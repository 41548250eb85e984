import Mathlib.Data.List.Infix
import Mathlib.Data.List.Forall2
import Mathlib.Data.Set.Function
import SnmpAgent.Lib.Decimal
import SnmpAgent.Codec.Oid

/-!
# The text form of object identifiers (`codec/oid.rs`)

A `str` is the list of its characters. `from_str` takes the parts between the dots to
`u32::from_str`, which allows a plus sign in front of the digits. So a string that is accepted is a
dotted-decimal numeral, or such a numeral with plus signs; and behind a plus sign zeros are not
looked for.
-/

namespace SnmpAgent
open Decimal

/-! ## `u32::from_str` -/

/-- `std::num::IntErrorKind`, as far as unsigned numbers have it. -/
inductive ParseIntError where
  | empty
  | invalidDigit
  | posOverflow
  deriving DecidableEq, Repr

def parseDigits (result : Nat) : List Char → Except ParseIntError Nat
  | [] => .ok result
  | c :: src =>
    if c.isDigit then
      if result * 10 + (c.toNat - '0'.toNat) < 2 ^ 32 then
        parseDigits (result * 10 + (c.toNat - '0'.toNat)) src
      else .error .posOverflow
    else .error .invalidDigit

/-- The digits behind an optional plus sign. -/
def unsignedPart : List Char → List Char
  | '+' :: digits => digits
  | digits => digits

def parseU32 (src : List Char) : Except ParseIntError UInt32 :=
  if src = [] then .error .empty
  else if unsignedPart src = [] then .error .invalidDigit
  else UInt32.ofNat <$> parseDigits 0 (unsignedPart src)

/-! ## `Oid::from_str` and `Display` -/

/-- `OidErrorKind` with the kinds that only a text can have. -/
inductive ParseOidError where
  | emptyString
  | leadingDot
  | trailingDot
  | consecutiveDots
  | leadingZero (part : List Char)
  | invalidComponent (part : List Char) (source : ParseIntError)
  | components (kind : OidErrorKind)
  deriving DecidableEq, Repr

/-- `str::len` counts bytes. -/
def utf8Length (s : List Char) : Nat := (s.map Char.utf8Size).sum

def parseComponent (part : List Char) : Except ParseOidError UInt32 :=
  match parseU32 part with
  | .error source => .error (.invalidComponent part source)
  | .ok value =>
    if 1 < utf8Length part ∧ part.head? = some '0' then .error (.leadingZero part)
    else .ok value

def Oid.fromStr (s : List Char) : Except ParseOidError Oid :=
  if s = [] then .error .emptyString
  else if s.head? = some '.' then .error .leadingDot
  else if s.getLast? = some '.' then .error .trailingDot
  else if ['.', '.'] <:+: s then .error .consecutiveDots
  else do
    let components ← (s.splitOn '.').mapM parseComponent
    match Oid.tryFrom components with
    | .ok oid => .ok oid
    | .error kind => .error (.components kind)

/-- `Oid::fmt`. -/
def Oid.display (oid : Oid) : List Char :=
  match oid.arcs with
  | [] => []
  | first :: rest =>
    Nat.toDigits 10 first.toNat ++ rest.flatMap fun component =>
      '.' :: Nat.toDigits 10 component.toNat

/-! ## What the parts are -/

/-- A part that spells an arc without a redundant zero. -/
def PlainPart (part : List Char) (arc : UInt32) : Prop :=
  IsNumeral part ∧ value part = arc.toNat

/-- A part that spells an arc behind a plus sign, zeros in front or not. -/
def SignedPart (part : List Char) (arc : UInt32) : Prop :=
  ∃ digits, part = '+' :: digits ∧ digits ≠ [] ∧ IsDigits digits ∧ value digits = arc.toNat

/-- The dotted-decimal spelling of a valid object identifier: digits and dots, no leading zero. -/
def DottedDecimal (s : List Char) (oid : Oid) : Prop :=
  List.Forall₂ PlainPart (s.splitOn '.') oid.arcs

/-- The spelling of a valid object identifier with a plus sign in front of some of its arcs. -/
def SignedSpelling (s : List Char) : Prop :=
  '+' ∈ s ∧ ∃ oid : Oid,
    List.Forall₂ (fun part arc => PlainPart part arc ∨ SignedPart part arc) (s.splitOn '.') oid.arcs

/-- A string is accepted if it is a dotted-decimal spelling, and the result is displayed as it was
spelled. -/
structure TextExact (s : List Char) : Prop where
  accepts : (∃ oid, Oid.fromStr s = .ok oid) ↔ ∃ oid, DottedDecimal s oid
  displays : ∀ oid, Oid.fromStr s = .ok oid → oid.display = s

theorem parseDigits_eq_ok {cs : List Char} {result n : Nat} (h : result < 2 ^ 32) :
    parseDigits result cs = .ok n ↔
      IsDigits cs ∧ Nat.ofDigitChars 10 cs result = n ∧ n < 2 ^ 32 := by
  induction cs generalizing result with
  | nil =>
    rw [parseDigits, Nat.ofDigitChars_nil]
    constructor
    · rintro ⟨⟩
      exact ⟨fun _ h => absurd h List.not_mem_nil, rfl, h⟩
    · rintro ⟨-, rfl, -⟩
      rfl
  | cons c cs ih =>
    rw [parseDigits, isDigits_cons, Nat.ofDigitChars_cons, Nat.mul_comm 10]
    by_cases hc : c.isDigit = true
    · rw [if_pos hc]
      by_cases hfit : result * 10 + (c.toNat - '0'.toNat) < 2 ^ 32
      · rw [if_pos hfit, ih hfit, and_iff_right hc]
      · -- The digits that follow do not make the number smaller.
        rw [if_neg hfit]
        refine ⟨(nomatch ·), ?_⟩
        rintro ⟨-, rfl, hlt⟩
        exact absurd ((le_ofDigitChars cs _).trans_lt hlt) hfit
    · rw [if_neg hc]
      exact ⟨(nomatch ·), fun h => absurd h.1.1 hc⟩

theorem unsignedPart_cases (part : List Char) :
    part = '+' :: unsignedPart part ∨ part = unsignedPart part := by
  unfold unsignedPart
  split
  · exact .inl rfl
  · exact .inr rfl

theorem unsignedPart_of_isDigits {cs : List Char} (h : IsDigits cs) : unsignedPart cs = cs := by
  rcases unsignedPart_cases cs with hcs | hcs
  · have hplus : '+' ∈ cs := hcs ▸ List.mem_cons_self
    exact absurd hplus (h.not_mem rfl)
  · exact hcs.symm

theorem parseU32_eq_ok {part : List Char} {arc : UInt32} :
    parseU32 part = .ok arc ↔ unsignedPart part ≠ [] ∧ IsDigits (unsignedPart part) ∧
      value (unsignedPart part) = arc.toNat := by
  unfold parseU32
  split
  · rename_i hnil
    subst hnil
    exact ⟨(nomatch ·), fun h => absurd rfl h.1⟩
  split
  · rename_i hnil
    exact ⟨(nomatch ·), fun h => absurd hnil h.1⟩
  rename_i hne
  rw [and_iff_right hne]
  constructor
  · intro h
    obtain ⟨n, hn, rfl⟩ : ∃ n, parseDigits 0 (unsignedPart part) = .ok n ∧
      UInt32.ofNat n = arc := by
      cases hp : parseDigits 0 (unsignedPart part) with
      | error e => rw [hp] at h; cases h
      | ok n => rw [hp] at h; exact ⟨n, rfl, by cases h; rfl⟩
    obtain ⟨hdigits, hvalue, hlt⟩ := (parseDigits_eq_ok (by decide)).mp hn
    exact ⟨hdigits, by rw [UInt32.toNat_ofNat_of_lt' hlt, value, hvalue]⟩
  · rintro ⟨hdigits, hvalue⟩
    rw [(parseDigits_eq_ok (by decide)).mpr ⟨hdigits, hvalue, arc.toNat_lt⟩]
    exact congrArg Except.ok (UInt32.ofNat_toNat)

theorem leading_zero_iff {part : List Char} (hne : part ≠ []) :
    ¬ (1 < utf8Length part ∧ part.head? = some '0') ↔ (part.head? = some '0' → part = ['0']) := by
  obtain ⟨c, cs, rfl⟩ := List.exists_cons_of_ne_nil hne
  by_cases hc : c = '0'
  · subst hc
    cases cs with
    | nil => simp [utf8Length]; decide
    | cons d cs =>
      have := d.utf8Size_pos
      simp [utf8Length]
      have : '0'.utf8Size = 1 := by decide
      omega
  · simp [hc]

theorem parseComponent_eq_ok {part : List Char} {arc : UInt32} :
    parseComponent part = .ok arc ↔ PlainPart part arc ∨ SignedPart part arc := by
  have hparse : parseComponent part = .ok arc ↔ parseU32 part = .ok arc ∧
      ¬ (1 < utf8Length part ∧ part.head? = some '0') := by
    unfold parseComponent
    split
    · rename_i h
      simp [h]
    · rename_i h
      rw [h]
      split <;> simp_all
  rw [hparse, parseU32_eq_ok]
  constructor
  · rintro ⟨⟨hne, hdigits, hvalue⟩, hzero⟩
    rcases unsignedPart_cases part with hpart | hpart
    · exact .inr ⟨_, hpart, hne, hdigits, hvalue⟩
    · rw [← hpart] at hne hdigits hvalue
      exact .inl ⟨⟨hdigits, hne, (leading_zero_iff hne).mp hzero⟩, hvalue⟩
  · rintro (⟨⟨hdigits, hne, hzero⟩, hvalue⟩ | ⟨digits, rfl, hne, hdigits, hvalue⟩)
    · rw [unsignedPart_of_isDigits hdigits]
      exact ⟨⟨hne, hdigits, hvalue⟩, (leading_zero_iff hne).mpr hzero⟩
    · exact ⟨⟨hne, hdigits, hvalue⟩, fun h => absurd h.2 (by simp)⟩

theorem mapM_eq_ok {ε α β : Type} {f : α → Except ε β} {xs : List α} {ys : List β} :
    xs.mapM f = .ok ys ↔ List.Forall₂ (fun x y => f x = .ok y) xs ys := by
  induction xs generalizing ys with
  | nil =>
    rw [List.mapM_nil, List.forall₂_nil_left_iff]
    exact ⟨fun h => (Except.ok.inj h).symm, fun h => congrArg Except.ok h.symm⟩
  | cons x xs ih =>
    rw [List.mapM_cons, List.forall₂_cons_left_iff]
    cases hx : f x with
    | error e => simp [Bind.bind, Except.bind]
    | ok y =>
      cases hxs : xs.mapM f with
      | error e =>
        simp [Bind.bind, Except.bind, ← ih, hxs]
      | ok rest =>
        simp [Bind.bind, Except.bind, ← ih, hxs, pure, Except.pure, eq_comm]

/-- Where a dot is out of place, a part is empty. -/
theorem nil_mem_splitOn {s : List Char}
    (h : s = [] ∨ s.head? = some '.' ∨ s.getLast? = some '.' ∨ ['.', '.'] <:+: s) :
    [] ∈ s.splitOn '.' := by
  rcases h with rfl | h | h | ⟨before, after, rfl⟩
  · simp
  · obtain ⟨rest, rfl⟩ := List.head?_eq_some_iff.mp h
    have := List.splitOn_append_cons_self (a := '.') [] rest
    rw [List.nil_append] at this
    rw [this]
    simp
  · obtain ⟨rest, rfl⟩ := List.getLast?_eq_some_iff.mp h
    rw [List.splitOn_append_cons_self]
    simp
  · have hs : before ++ ['.', '.'] ++ after = before ++ '.' :: ([] ++ '.' :: after) := by simp
    rw [hs, List.splitOn_append_cons_self, List.splitOn_append_cons_self]
    simp

theorem nil_notMem_of_parts {parts : List (List Char)} {arcs : List UInt32}
    (h : List.Forall₂ (fun part arc => PlainPart part arc ∨ SignedPart part arc) parts arcs) :
    [] ∉ parts := by
  induction h with
  | nil => exact List.not_mem_nil
  | cons hpart _ ih =>
    rw [List.mem_cons, not_or]
    refine ⟨?_, ih⟩
    rintro rfl
    obtain h | ⟨_, h, -⟩ := hpart
    · exact h.1.ne_nil rfl
    · cases h

theorem fromStr_eq_ok {s : List Char} {oid : Oid} :
    Oid.fromStr s = .ok oid ↔
      List.Forall₂ (fun part arc => PlainPart part arc ∨ SignedPart part arc)
        (s.splitOn '.') oid.arcs := by
  have hparts {arcs : List UInt32} : (s.splitOn '.').mapM parseComponent = .ok arcs ↔
      List.Forall₂ (fun part arc => PlainPart part arc ∨ SignedPart part arc)
        (s.splitOn '.') arcs := by
    simp only [mapM_eq_ok, parseComponent_eq_ok]
  constructor
  · intro h
    unfold Oid.fromStr at h
    split_ifs at h
    rw [← hparts]
    cases hmap : (s.splitOn '.').mapM parseComponent with
    | error e => rw [hmap] at h; cases h
    | ok components =>
      simp only [hmap, Bind.bind, Except.bind] at h
      split at h
      · rename_i htry
        cases h
        rw [Oid.tryFrom_eq_ok.mp htry]
      · cases h
  · intro h
    have hdots := mt nil_mem_splitOn (nil_notMem_of_parts h)
    simp only [not_or] at hdots
    obtain ⟨h1, h2, h3, h4⟩ := hdots
    rw [Oid.fromStr, if_neg h1, if_neg h2, if_neg h3, if_neg h4, hparts.mpr h]
    simp only [Bind.bind, Except.bind, Oid.tryFrom_arcs]

/-! ## Displayed text -/

theorem plainPart_iff {part : List Char} {arc : UInt32} :
    PlainPart part arc ↔ part = Nat.toDigits 10 arc.toNat := isNumeral_iff

theorem display_eq_intercalate (oid : Oid) :
    oid.display = ['.'].intercalate (oid.arcs.map fun arc => Nat.toDigits 10 arc.toNat) := by
  have hrest (first : List Char) (rest : List UInt32) :
      first ++ (rest.flatMap fun component => '.' :: Nat.toDigits 10 component.toNat) =
        ['.'].intercalate (first :: rest.map fun arc => Nat.toDigits 10 arc.toNat) := by
    induction rest generalizing first with
    | nil => simp
    | cons arc rest ih =>
      rw [List.flatMap_cons, List.map_cons, List.intercalate_cons_cons, ← ih]
      simp
  rw [Oid.display, oid.arcs_eq]
  exact hrest _ _

/-- The dotted-decimal spelling of an object identifier is the displayed one. -/
theorem dottedDecimal_iff {s : List Char} {oid : Oid} : DottedDecimal s oid ↔ oid.display = s := by
  have hparts : DottedDecimal s oid ↔
      s.splitOn '.' = oid.arcs.map fun arc => Nat.toDigits 10 arc.toNat := by
    have hplain : PlainPart = fun part arc => part = Nat.toDigits 10 arc.toNat := by
      ext
      exact plainPart_iff
    rw [DottedDecimal, hplain, ← List.forall₂_map_right_iff (R := Eq), List.forall₂_eq_eq_eq]
  rw [hparts, display_eq_intercalate]
  constructor
  · intro h
    rw [← h, List.intercalate_splitOn]
  · rintro rfl
    refine List.splitOn_intercalate '.' ?_ (by simp [oid.arcs_eq])
    intro part hpart
    obtain ⟨arc, -, rfl⟩ := List.mem_map.mp hpart
    exact (isDigits_toDigits _).not_mem rfl

theorem fromStr_display (oid : Oid) : Oid.fromStr oid.display = .ok oid :=
  fromStr_eq_ok.mpr ((dottedDecimal_iff.mpr rfl).imp fun _ _ => .inl)

/-! ## Canonical text -/

/-- A plus sign is never displayed. -/
theorem plus_notMem_display (oid : Oid) : '+' ∉ oid.display := by
  have hdigits (arc : UInt32) : '+' ∉ Nat.toDigits 10 arc.toNat :=
    (isDigits_toDigits arc.toNat).not_mem rfl
  rw [Oid.display, oid.arcs_eq]
  simp [hdigits]

theorem mem_of_mem_splitOn {s part : List Char} {sep c : Char} (hpart : part ∈ s.splitOn sep)
    (hc : c ∈ part) : c ∈ s := by
  induction s generalizing part with
  | nil =>
    rw [List.splitOn_nil, List.mem_singleton] at hpart
    rwa [hpart] at hc
  | cons x s ih =>
    rw [List.splitOn_cons_eq_if_modifyHead] at hpart
    split at hpart
    · rcases List.mem_cons.mp hpart with rfl | hpart
      · cases hc
      · exact List.mem_cons_of_mem x (ih hpart hc)
    · obtain ⟨first, rest, hsplit⟩ := List.exists_cons_of_ne_nil (List.splitOn_ne_nil sep s)
      rw [hsplit] at hpart ih
      rcases List.mem_cons.mp hpart with rfl | hpart
      · rcases List.mem_cons.mp hc with rfl | hc
        · exact List.mem_cons_self
        · exact List.mem_cons_of_mem x (ih List.mem_cons_self hc)
      · exact List.mem_cons_of_mem x (ih (List.mem_cons_of_mem first hpart) hc)

/-- Without a plus sign the parts of an accepted string are numerals. -/
theorem dottedDecimal_of_fromStr {s : List Char} {oid : Oid} (h : Oid.fromStr s = .ok oid)
    (hplus : '+' ∉ s) : DottedDecimal s oid := by
  have hparts : ∀ part ∈ s.splitOn '.', '+' ∉ part :=
    fun part hpart hmem => hplus (mem_of_mem_splitOn hpart hmem)
  have h := fromStr_eq_ok.mp h
  unfold DottedDecimal
  generalize s.splitOn '.' = parts at h hparts
  generalize oid.arcs = arcs at h
  induction h with
  | nil => exact .nil
  | cons hpart _ ih =>
    rw [List.forall_mem_cons] at hparts
    refine .cons (hpart.resolve_right ?_) (ih hparts.2)
    rintro ⟨digits, rfl, -⟩
    exact hparts.1 List.mem_cons_self

theorem textExact_of_not_signedSpelling {s : List Char} (hsigned : ¬ SignedSpelling s) :
    TextExact s := by
  have hdotted {oid : Oid} (h : Oid.fromStr s = .ok oid) : DottedDecimal s oid :=
    dottedDecimal_of_fromStr h fun hplus => hsigned ⟨hplus, oid, fromStr_eq_ok.mp h⟩
  refine ⟨⟨?_, ?_⟩, fun oid h => dottedDecimal_iff.mp (hdotted h)⟩
  · rintro ⟨oid, h⟩
    exact ⟨oid, hdotted h⟩
  · rintro ⟨oid, h⟩
    exact ⟨oid, dottedDecimal_iff.mp h ▸ fromStr_display oid⟩

/-- **Text form.** Displayed text is parsed back, and what is parsed is the displayed text, except
where there is a plus sign in front of an arc. -/
theorem text_exact_iff (oid : Oid) (s : List Char) :
    Oid.fromStr oid.display = .ok oid ∧
    (TextExact s ↔ ¬ SignedSpelling s) ∧
    Set.InjOn Oid.fromStr {s | ¬ SignedSpelling s ∧ ∃ oid, Oid.fromStr s = .ok oid} := by
  refine ⟨fromStr_display oid, ⟨?_, textExact_of_not_signedSpelling⟩, ?_⟩
  · rintro H ⟨hplus, oid, h⟩
    rw [← H.displays oid (fromStr_eq_ok.mpr h)] at hplus
    exact plus_notMem_display oid hplus
  · rintro s ⟨hs, oid, hoid⟩ t ⟨ht, -⟩ heq
    rw [← (textExact_of_not_signedSpelling hs).displays oid hoid,
      ← (textExact_of_not_signedSpelling ht).displays oid (heq ▸ hoid)]

/-- Three spellings of 1.3, one of them with a leading zero. -/
theorem signed_spelling_accepted :
    Oid.fromStr ['1', '.', '3'] = .ok ⟨[1, 3], rfl⟩ ∧
    Oid.fromStr ['1', '.', '+', '3'] = .ok ⟨[1, 3], rfl⟩ ∧
    Oid.fromStr ['+', '1', '.', '+', '0', '3'] = .ok ⟨[1, 3], rfl⟩ ∧
    ¬ TextExact ['1', '.', '+', '3'] := by
  have haccepted : Oid.fromStr ['1', '.', '+', '3'] = .ok ⟨[1, 3], rfl⟩ := by decide
  refine ⟨by decide, haccepted, by decide, fun H => ?_⟩
  exact absurd (H.displays _ haccepted) (by decide)

end SnmpAgent
