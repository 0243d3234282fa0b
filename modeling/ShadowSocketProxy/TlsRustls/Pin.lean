import Mathlib.Data.List.DropRight
import Mathlib.Tactic.IntervalCases

/-! # The pin of the peer

The peer is trusted by the SHA-256 digest of its certificate, which is configured as text. The parser
drops outer whitespace and one marker, skips separators and reads pairs of hexadecimal digits. What it
accepts, and what it reads, depends on the digits of the text alone. -/

namespace ShadowSocketProxy.TlsRustls

variable {c : Char} {ds text : List Char} {n : Nat}

/-! ## The parser -/

/-- Why a TLS configuration is rejected. -/
inductive RustlsConfigError where
  | invalidPeerPin
  deriving DecidableEq

/-- `char::is_whitespace`. -/
def isWhitespace (c : Char) : Bool :=
  let n := c.toNat
  (0x09 ≤ n && n ≤ 0x0d) || n = 0x20 || n = 0x85 || n = 0xa0 || n = 0x1680 ||
    (0x2000 ≤ n && n ≤ 0x200a) || n = 0x2028 || n = 0x2029 || n = 0x202f || n = 0x205f || n = 0x3000

/-- `char::is_ascii_whitespace`; a vertical tab is none. -/
def isAsciiWhitespace (c : Char) : Bool :=
  let n := c.toNat
  n = 0x20 || n = 0x09 || n = 0x0a || n = 0x0c || n = 0x0d

/-- `char::is_ascii_hexdigit`. -/
def isAsciiHexdigit (c : Char) : Bool :=
  let n := c.toNat
  (0x30 ≤ n && n ≤ 0x39) || (0x41 ≤ n && n ≤ 0x46) || (0x61 ≤ n && n ≤ 0x66)

/-- `str::trim`. -/
def trim (value : List Char) : List Char := (value.dropWhile isWhitespace).rdropWhile isWhitespace

/-- Without one marker in front. -/
def stripMarker : List Char → List Char
  | '0' :: 'x' :: stripped => stripped
  | '0' :: 'X' :: stripped => stripped
  | value => value

/-- The digits of a text, as bytes. -/
def normalize : List Char → Except RustlsConfigError (List UInt8)
  | [] => .ok []
  | c :: rest =>
    if isAsciiHexdigit c then do
      let normalized ← normalize rest
      .ok (UInt8.ofNat c.toNat :: normalized)
    else if isAsciiWhitespace c || c = ':' || c = '-' then normalize rest
    else .error .invalidPeerPin

/-- The value of a digit. -/
def hexNibble (value : UInt8) : Except RustlsConfigError UInt8 :=
  if 0x30 ≤ value ∧ value ≤ 0x39 then .ok (value - 0x30)
  else if 0x61 ≤ value ∧ value ≤ 0x66 then .ok (value - 0x61 + 10)
  else if 0x41 ≤ value ∧ value ≤ 0x46 then .ok (value - 0x41 + 10)
  else .error .invalidPeerPin

/-- Fill a digest from an index on, two digits a byte. -/
def fillDigest (digest : Vector UInt8 32) (index : Nat) :
    List UInt8 → Except RustlsConfigError (Vector UInt8 32)
  | high :: low :: rest => do
    let high ← hexNibble high
    let low ← hexNibble low
    fillDigest (digest.setIfInBounds index ((high <<< 4) ||| low)) (index + 1) rest
  | _ => .ok digest

/-- Parse a digest. -/
def parseSha256Pin (value : String) : Except RustlsConfigError (Vector UInt8 32) := do
  let normalized ← normalize (stripMarker (trim value.toList))
  if normalized.length ≠ 64 then .error .invalidPeerPin
  else fillDigest (Vector.replicate 32 0) 0 normalized

/-! ## Digits -/

/-- The digits, by their values. -/
def alphabet : List Char := ['0', '1', '2', '3', '4', '5', '6', '7', '8', '9', 'a', 'b', 'c', 'd', 'e', 'f']

/-- The value of a digit, in either case. -/
def hexValue (c : Char) : Nat := alphabet.idxOf c.toLower

theorem mem_of_isAsciiHexdigit (h : isAsciiHexdigit c = true) :
    c ∈ alphabet ++ ['A', 'B', 'C', 'D', 'E', 'F'] := by
  simp only [isAsciiHexdigit, Bool.or_eq_true, Bool.and_eq_true, decide_eq_true_eq] at h
  rw [← Char.ofNat_toNat c]
  rcases h with (⟨hl, hu⟩ | ⟨hl, hu⟩) | ⟨hl, hu⟩
  · interval_cases c.toNat <;> decide
  · interval_cases c.toNat <;> decide
  · interval_cases c.toNat <;> decide

/-- What holds of the twenty-two digits holds of every digit. -/
theorem forall_digit {P : Char → Prop} [DecidablePred P]
    (h : (alphabet ++ ['A', 'B', 'C', 'D', 'E', 'F']).all (fun c => decide (P c)) = true)
    (hc : isAsciiHexdigit c = true) : P c :=
  of_decide_eq_true (List.all_eq_true.mp h c (mem_of_isAsciiHexdigit hc))

theorem hexNibble_eq (h : isAsciiHexdigit c = true) :
    hexNibble (UInt8.ofNat c.toNat) = .ok (UInt8.ofNat (hexValue c)) :=
  forall_digit (P := fun c => hexNibble (UInt8.ofNat c.toNat) = .ok (UInt8.ofNat (hexValue c)))
    (by decide) h

theorem hexValue_lt (h : isAsciiHexdigit c = true) : hexValue c < 16 :=
  forall_digit (P := fun c => hexValue c < 16) (by decide) h

/-- A digit is found under its value, in lower case. -/
theorem alphabet_hexValue (h : isAsciiHexdigit c = true) : alphabet[hexValue c]? = some c.toLower :=
  forall_digit (P := fun c => alphabet[hexValue c]? = some c.toLower) (by decide) h

theorem not_isWhitespace_of_digit (h : isAsciiHexdigit c = true) : isWhitespace c = false :=
  forall_digit (P := fun c => isWhitespace c = false) (by decide) h

/-! ## What is accepted -/

/-- A character that is skipped. -/
def isSeparator (c : Char) : Bool := isAsciiWhitespace c || c = ':' || c = '-'

/-- A text of digits and separators. -/
def Spaced (text : List Char) : Prop := ∀ c ∈ text, isAsciiHexdigit c = true ∨ isSeparator c = true

/-- The digits of a text. -/
def digits (text : List Char) : List Char := text.filter isAsciiHexdigit

/-- The text behind outer whitespace and one marker. -/
def body (value : String) : List Char := stripMarker (trim value.toList)

/-- The bytes that digits spell. -/
def spell : List Char → List UInt8
  | high :: low :: rest => UInt8.ofNat (16 * hexValue high + hexValue low) :: spell rest
  | _ => []

theorem normalize_eq_ok_iff {bytes : List UInt8} :
    normalize text = .ok bytes ↔
      Spaced text ∧ bytes = (digits text).map fun c => UInt8.ofNat c.toNat := by
  induction text generalizing bytes with
  | nil =>
    constructor
    · rintro ⟨⟩
      exact ⟨fun c hc => absurd hc List.not_mem_nil, rfl⟩
    · rintro ⟨-, rfl⟩
      rfl
  | cons c rest ih =>
    have hspaced : Spaced (c :: rest) ↔
        (isAsciiHexdigit c = true ∨ isSeparator c = true) ∧ Spaced rest := List.forall_mem_cons
    rw [normalize, hspaced]
    by_cases hdigit : isAsciiHexdigit c = true
    · rw [if_pos hdigit, digits, List.filter_cons_of_pos hdigit, List.map_cons]
      constructor
      · intro h
        cases hrest : normalize rest with
        | error error =>
          rw [hrest] at h
          cases h
        | ok normalized =>
          rw [hrest] at h
          obtain ⟨hspaced, hbytes⟩ := ih.mp hrest
          rw [← Except.ok.inj h, hbytes]
          exact ⟨⟨.inl hdigit, hspaced⟩, rfl⟩
      · rintro ⟨⟨-, hspaced⟩, rfl⟩
        rw [ih.mpr ⟨hspaced, rfl⟩]
        rfl
    · have hskip : (isAsciiWhitespace c || c = ':' || c = '-') = isSeparator c := rfl
      rw [if_neg hdigit, digits, List.filter_cons_of_neg hdigit, hskip]
      by_cases hseparator : isSeparator c = true
      · rw [if_pos hseparator, ih, and_iff_right (Or.inr hseparator)]
        rfl
      · rw [if_neg hseparator]
        constructor
        · rintro ⟨⟩
        · rintro ⟨⟨hc, -⟩, -⟩
          exact absurd hc (not_or.mpr ⟨hdigit, hseparator⟩)

/-- An even number of digits without a first pair is none. -/
theorem eq_nil_of_no_pair (h : ds.length = 2 * n)
    (hpair : ∀ high low rest, ds = high :: low :: rest → False) : ds = [] := by
  match ds, h with
  | [], _ => rfl
  | [_], h =>
    rw [List.length_singleton] at h
    omega
  | high :: low :: rest, _ => exact (hpair high low rest rfl).elim

/-- Two digits spell a byte. -/
theorem spell_length (h : ds.length = 2 * n) : (spell ds).length = n := by
  induction ds using spell.induct generalizing n with
  | case1 high low rest ih =>
    simp only [List.length_cons] at h
    rw [spell, List.length_cons, ih (n := n - 1) (by omega)]
    omega
  | case2 ds hshort =>
    obtain rfl := eq_nil_of_no_pair h hshort
    rw [List.length_nil] at h
    rw [spell, List.length_nil]
    · omega
    · exact hshort

/-- Two nibbles make a byte. -/
theorem nibbles_eq {high low : Nat} (hhigh : high < 16) (hlow : low < 16) :
    (UInt8.ofNat high <<< 4) ||| UInt8.ofNat low = UInt8.ofNat (16 * high + low) := by
  have hall : ∀ high low : Fin 16, (UInt8.ofNat high.val <<< 4) ||| UInt8.ofNat low.val =
      UInt8.ofNat (16 * high.val + low.val) := by decide
  exact hall ⟨high, hhigh⟩ ⟨low, hlow⟩

theorem fillDigest_cons {high low : Char} (hhigh : isAsciiHexdigit high = true)
    (hlow : isAsciiHexdigit low = true) (digest : Vector UInt8 32) (index : Nat) (rest : List UInt8) :
    fillDigest digest index (UInt8.ofNat high.toNat :: UInt8.ofNat low.toNat :: rest) =
      fillDigest (digest.setIfInBounds index (UInt8.ofNat (16 * hexValue high + hexValue low)))
        (index + 1) rest := by
  rw [fillDigest, hexNibble_eq hhigh, hexNibble_eq hlow,
    ← nibbles_eq (hexValue_lt hhigh) (hexValue_lt hlow)]
  rfl

/-- The digest is filled with what the digits spell. -/
theorem fillDigest_eq (hds : ∀ c ∈ ds, isAsciiHexdigit c = true) {index : Nat}
    (hindex : index ≤ 32) (hlength : ds.length = 2 * (32 - index)) (digest : Vector UInt8 32) :
    ∃ pin, fillDigest digest index (ds.map fun c => UInt8.ofNat c.toNat) = .ok pin ∧
      pin.toList = digest.toList.take index ++ spell ds := by
  -- the recursion of `spell` takes two digits a step, and so does that of `fillDigest`
  induction ds using spell.induct generalizing index digest with
  | case1 high low rest ih =>
    rw [List.forall_mem_cons, List.forall_mem_cons] at hds
    obtain ⟨hhigh, hlow, hrest⟩ := hds
    simp only [List.length_cons] at hlength
    have hlt : index < digest.toList.length := by
      rw [Vector.length_toList]
      omega
    have hnext : index + 1 ≤ 32 := by omega
    obtain ⟨pin, hfill, hpin⟩ := ih hrest hnext (by omega)
      (digest.setIfInBounds index (UInt8.ofNat (16 * hexValue high + hexValue low)))
    refine ⟨pin, ?_, ?_⟩
    · rw [List.map_cons, List.map_cons, fillDigest_cons hhigh hlow, hfill]
    · rw [hpin, Vector.toList_setIfInBounds, List.take_succ_eq_append_getElem, List.take_set_of_le,
        List.getElem_set_self, spell, List.append_assoc, List.singleton_append]
      · exact le_refl _
      · rwa [List.length_set]
  | case2 ds hshort =>
    obtain rfl := eq_nil_of_no_pair hlength hshort
    rw [List.length_nil] at hlength
    refine ⟨digest, rfl, ?_⟩
    rw [spell, List.append_nil, List.take_of_length_le]
    · rw [Vector.length_toList]
      omega
    · exact hshort

theorem parseSha256Pin_of_normalize {value : String} {normalized : List UInt8}
    (h : normalize (body value) = .ok normalized) :
    parseSha256Pin value = if normalized.length ≠ 64 then .error .invalidPeerPin
      else fillDigest (Vector.replicate 32 0) 0 normalized := by
  rw [parseSha256Pin, ← body, h]
  rfl

/-- **What the parser accepts, and what it reads.** -/
theorem parseSha256Pin_eq_ok_iff {value : String} {pin : Vector UInt8 32} :
    parseSha256Pin value = .ok pin ↔
      Spaced (body value) ∧ (digits (body value)).length = 64 ∧
        pin.toList = spell (digits (body value)) := by
  have hfill : (digits (body value)).length = 64 → ∃ pin, fillDigest (Vector.replicate 32 0) 0
      ((digits (body value)).map fun c => UInt8.ofNat c.toNat) = .ok pin ∧
        pin.toList = spell (digits (body value)) := fun hlength =>
    fillDigest_eq (fun c hc => (List.mem_filter.mp hc).2) (Nat.zero_le 32) hlength _
  constructor
  · intro h
    cases hnormalize : normalize (body value) with
    | error error =>
      rw [parseSha256Pin, ← body, hnormalize] at h
      cases h
    | ok normalized =>
      obtain ⟨hspaced, rfl⟩ := normalize_eq_ok_iff.mp hnormalize
      rw [parseSha256Pin_of_normalize hnormalize, List.length_map] at h
      split at h
      · cases h
      · rename_i hlength
        obtain ⟨pin', hpin, hspell⟩ := hfill (not_not.mp hlength)
        obtain rfl : pin' = pin := Except.ok.inj (hpin.symm.trans h)
        exact ⟨hspaced, not_not.mp hlength, hspell⟩
  · rintro ⟨hspaced, hlength, hspell⟩
    obtain ⟨pin', hpin, hspell'⟩ := hfill hlength
    obtain rfl : pin' = pin := Vector.toList_inj.mp (hspell'.trans hspell.symm)
    rw [parseSha256Pin_of_normalize (normalize_eq_ok_iff.mpr ⟨hspaced, rfl⟩), List.length_map,
      if_neg (not_not.mpr hlength), hpin]

/-! ## Cases -/

theorem hexValue_eq_iff {d : Char} (hc : isAsciiHexdigit c = true) (hd : isAsciiHexdigit d = true) :
    hexValue c = hexValue d ↔ c.toLower = d.toLower := by
  constructor
  · intro h
    have hfound := alphabet_hexValue hc
    rw [h, alphabet_hexValue hd] at hfound
    exact (Option.some.inj hfound).symm
  · intro h
    rw [hexValue, hexValue, h]

/-- The values of two digits are read off their byte. -/
theorem byte_eq_iff {a b c d : Nat} (ha : a < 16) (hb : b < 16) (hc : c < 16) (hd : d < 16) :
    UInt8.ofNat (16 * a + b) = UInt8.ofNat (16 * c + d) ↔ a = c ∧ b = d := by
  rw [← UInt8.toNat_inj, UInt8.toNat_ofNat', UInt8.toNat_ofNat']
  omega

/-- Digits spell the same bytes exactly when they are the same up to case. -/
theorem spell_eq_iff {es : List Char} (hds : ∀ c ∈ ds, isAsciiHexdigit c = true)
    (hes : ∀ c ∈ es, isAsciiHexdigit c = true) (hlength : ds.length = es.length)
    (heven : ds.length % 2 = 0) :
    spell ds = spell es ↔ ds.map Char.toLower = es.map Char.toLower := by
  induction ds using spell.induct generalizing es with
  | case1 high low rest ih =>
    match es, hlength with
    | high' :: low' :: rest', hlength =>
      simp only [List.forall_mem_cons] at hds hes
      obtain ⟨hhigh, hlow, hrest⟩ := hds
      obtain ⟨hhigh', hlow', hrest'⟩ := hes
      simp only [List.length_cons] at hlength heven
      rw [spell, spell, List.cons.injEq, byte_eq_iff (hexValue_lt hhigh) (hexValue_lt hlow)
        (hexValue_lt hhigh') (hexValue_lt hlow'), hexValue_eq_iff hhigh hhigh',
        hexValue_eq_iff hlow hlow', ih hrest hrest' (by omega) (by omega)]
      simp only [List.map_cons, List.cons.injEq, and_assoc]
    | [_], hlength =>
      simp only [List.length_cons, List.length_nil] at hlength
      omega
    | [], hlength => cases hlength
  | case2 ds hshort =>
    have hempty : ds = [] := by
      match ds, heven with
      | [], _ => rfl
      | [_], heven => cases heven
      | high :: low :: rest, _ => exact absurd rfl (hshort high low rest)
    subst hempty
    rw [List.eq_nil_of_length_eq_zero hlength.symm]
    exact iff_of_true rfl rfl

/-! ## Texts of a digest -/

/-- A byte in lower case. -/
def byteText (byte : UInt8) : List Char :=
  [alphabet.getD (byte.toNat / 16) '0', alphabet.getD (byte.toNat % 16) '0']

/-- A digest in lower case. -/
def hexText (pin : Vector UInt8 32) : List Char := pin.toList.flatMap byteText

theorem hexValue_alphabet (h : n < 16) : hexValue (alphabet.getD n '0') = n := by
  have hall : ∀ n : Fin 16, hexValue (alphabet.getD n.val '0') = n.val := by decide
  exact hall ⟨n, h⟩

theorem spell_flatMap_byteText (bytes : List UInt8) : spell (bytes.flatMap byteText) = bytes := by
  induction bytes with
  | nil => rfl
  | cons byte rest ih =>
    have hlt := byte.toNat_lt
    rw [List.flatMap_cons, byteText, List.cons_append, List.cons_append, List.nil_append, spell, ih,
      hexValue_alphabet (by omega), hexValue_alphabet (by omega), Nat.div_add_mod,
      UInt8.ofNat_toNat]

theorem length_hexText (pin : Vector UInt8 32) : (hexText pin).length = 64 := by
  have hlength : ∀ byte ∈ pin.toList, (byteText byte).length = 2 := fun _ _ => rfl
  rw [hexText, List.length_flatMap, List.map_congr_left hlength, List.map_const',
    Vector.length_toList]
  rfl

/-- The case of the digits does not matter. -/
theorem spell_map_toLower (hds : ∀ c ∈ ds, isAsciiHexdigit c = true) :
    spell (ds.map Char.toLower) = spell ds := by
  have hvalue : ∀ c ∈ ds, hexValue c.toLower = hexValue c := fun c hc =>
    forall_digit (P := fun c => hexValue c.toLower = hexValue c) (by decide) (hds c hc)
  induction ds using spell.induct with
  | case1 high low rest ih =>
    simp only [List.forall_mem_cons] at hds hvalue
    rw [List.map_cons, List.map_cons, spell, spell, hvalue.1, hvalue.2.1, ih hds.2.2 hvalue.2.2]
  | case2 ds hshort =>
    match ds with
    | [] => rfl
    | [_] => rfl
    | high :: low :: rest => exact absurd rfl (hshort high low rest)

/-! ## Outer whitespace and markers -/

/-- Dropping what is no digit leaves the digits. -/
theorem digits_dropWhile (text : List Char) : digits (text.dropWhile isWhitespace) = digits text := by
  induction text with
  | nil => rfl
  | cons c rest ih =>
    by_cases hc : isWhitespace c = true
    · have hdigit : ¬ isAsciiHexdigit c = true := fun h => by
        rw [not_isWhitespace_of_digit h] at hc
        cases hc
      rw [List.dropWhile_cons_of_pos hc, ih, digits, digits, List.filter_cons_of_neg hdigit]
    · rw [List.dropWhile_cons_of_neg hc]

theorem digits_rdropWhile (text : List Char) : digits (text.rdropWhile isWhitespace) = digits text := by
  have hreverse := digits_dropWhile text.reverse
  rw [digits, digits] at *
  rw [List.rdropWhile, List.filter_reverse, hreverse, List.filter_reverse, List.reverse_reverse]

/-- A text that stays a text when whitespace around it is dropped. -/
theorem Spaced.subset {part : List Char} (h : Spaced text) (hpart : part ⊆ text) : Spaced part :=
  fun c hc => h c (hpart hc)

/-- There is no marker among digits and separators. -/
theorem stripMarker_of_spaced (h : Spaced text) : stripMarker text = text := by
  have hlower : ¬ (isAsciiHexdigit 'x' = true ∨ isSeparator 'x' = true) := by decide
  have hupper : ¬ (isAsciiHexdigit 'X' = true ∨ isSeparator 'X' = true) := by decide
  rw [stripMarker.eq_def]
  split
  · exact absurd (h 'x' (by simp)) hlower
  · exact absurd (h 'X' (by simp)) hupper
  · rfl

/-- Outer whitespace does not matter, if there is something inside. -/
theorem trim_eq {lead inner trail : List Char} (hlead : ∀ c ∈ lead, isWhitespace c = true)
    (htrail : ∀ c ∈ trail, isWhitespace c = true) (hinner : ∃ c ∈ inner, isWhitespace c = false) :
    trim (lead ++ inner ++ trail) = trim inner := by
  have hleft : (lead ++ inner ++ trail).dropWhile isWhitespace =
      inner.dropWhile isWhitespace ++ trail := by
    rw [List.append_assoc, List.dropWhile_append_of_pos hlead, List.dropWhile_append, if_neg]
    intro hempty
    obtain ⟨c, hc, hblack⟩ := hinner
    rw [List.dropWhile_eq_nil_iff.mp (List.isEmpty_iff.mp hempty) c hc] at hblack
    cases hblack
  have htrail' : ∀ c ∈ trail.reverse, isWhitespace c = true := fun c hc =>
    htrail c (List.mem_reverse.mp hc)
  rw [trim, hleft, List.rdropWhile, List.reverse_append, List.dropWhile_append_of_pos htrail', trim,
    List.rdropWhile]

theorem rdropWhile_subset (p : Char → Bool) (text : List Char) : text.rdropWhile p ⊆ text :=
  fun _ hc => List.mem_reverse.mp (List.dropWhile_subset _ (List.mem_reverse.mp hc))

theorem trim_subset (text : List Char) : trim text ⊆ text :=
  fun _ hc => List.dropWhile_subset _ (rdropWhile_subset _ _ hc)

theorem digits_trim (text : List Char) : digits (trim text) = digits text := by
  rw [trim, digits_rdropWhile, digits_dropWhile]

/-- A marker stays where it is. -/
theorem trim_marker {x : Char} (hx : isWhitespace x = false) (text : List Char) :
    trim ('0' :: x :: text) = '0' :: x :: text.rdropWhile isWhitespace := by
  have hzero : ¬ isWhitespace '0' = true := by decide
  have hx' : ¬ isWhitespace x = true := Bool.eq_false_iff.mp hx
  have hright : (text.reverse ++ [x] ++ ['0']).dropWhile isWhitespace =
      text.reverse.dropWhile isWhitespace ++ [x] ++ ['0'] := by
    rw [List.append_assoc, List.dropWhile_append, List.append_assoc]
    split
    · rename_i hempty
      rw [List.isEmpty_iff.mp hempty, List.nil_append, List.singleton_append,
        List.dropWhile_cons_of_neg hx']
    · rfl
  rw [trim, List.dropWhile_cons_of_neg hzero, List.rdropWhile, List.reverse_cons, List.reverse_cons,
    hright, List.reverse_append, List.reverse_append]
  rfl

/-- The markers, and none. -/
def markers : List (List Char) := [[], ['0', 'x'], ['0', 'X']]

/-- What is left of a text behind whitespace and a marker has the same digits. -/
theorem body_eq {lead marker trail : List Char} (hlead : ∀ c ∈ lead, isWhitespace c = true)
    (hmarker : marker ∈ markers) (htext : Spaced text) (hdigits : digits text ≠ [])
    (htrail : ∀ c ∈ trail, isWhitespace c = true) :
    Spaced (body (String.ofList (lead ++ (marker ++ text) ++ trail))) ∧
      digits (body (String.ofList (lead ++ (marker ++ text) ++ trail))) = digits text := by
  obtain ⟨d, hd⟩ := List.exists_mem_of_ne_nil _ hdigits
  obtain ⟨hmem, hdigit⟩ := List.mem_filter.mp hd
  have hinner : ∃ c ∈ marker ++ text, isWhitespace c = false :=
    ⟨d, List.mem_append_right _ hmem, not_isWhitespace_of_digit hdigit⟩
  have hmarked : ∀ x, isWhitespace x = false → (∀ rest, stripMarker ('0' :: x :: rest) = rest) →
      Spaced (stripMarker (trim ('0' :: x :: text))) ∧
        digits (stripMarker (trim ('0' :: x :: text))) = digits text := by
    intro x hx hstrip
    rw [trim_marker hx, hstrip, digits_rdropWhile]
    exact ⟨htext.subset (rdropWhile_subset _ _), rfl⟩
  rw [body, String.toList_ofList, trim_eq hlead htrail hinner]
  simp only [markers, List.mem_cons, List.not_mem_nil, or_false] at hmarker
  rcases hmarker with rfl | rfl | rfl
  · have hspaced : Spaced (trim text) := htext.subset (trim_subset text)
    rw [List.nil_append, stripMarker_of_spaced hspaced, digits_trim]
    exact ⟨hspaced, rfl⟩
  · exact hmarked 'x' (by decide) fun _ => rfl
  · exact hmarked 'X' (by decide) fun _ => rfl

/-- **The grammar of pins.** A text is accepted exactly when behind outer whitespace and one marker it
consists of separators and sixty-four digits, and it is read as the bytes that the digits spell. Hence
every text of a digest, in either case, with separators, marker and outer whitespace, is read as the
digest, and two accepted texts are read as one pin exactly when their digits agree up to case. -/
theorem parseSha256Pin_grammar :
    (∀ value, (∃ pin, parseSha256Pin value = .ok pin) ↔
      Spaced (body value) ∧ (digits (body value)).length = 64) ∧
    (∀ value pin, parseSha256Pin value = .ok pin → pin.toList = spell (digits (body value))) ∧
    (∀ (pin : Vector UInt8 32) (lead marker text trail : List Char),
      (∀ c ∈ lead, isWhitespace c = true) → marker ∈ markers → Spaced text →
      (digits text).map Char.toLower = hexText pin → (∀ c ∈ trail, isWhitespace c = true) →
      parseSha256Pin (String.ofList (lead ++ (marker ++ text) ++ trail)) = .ok pin) ∧
    ∀ value value' pin pin', parseSha256Pin value = .ok pin → parseSha256Pin value' = .ok pin' →
      (pin = pin' ↔
        (digits (body value)).map Char.toLower = (digits (body value')).map Char.toLower) := by
  have hdigits : ∀ text, ∀ c ∈ digits text, isAsciiHexdigit c = true := fun text c hc =>
    (List.mem_filter.mp hc).2
  refine ⟨fun value => ?_, fun value pin h => ?_, ?_, ?_⟩
  · constructor
    · rintro ⟨pin, hpin⟩
      obtain ⟨hspaced, hlength, -⟩ := parseSha256Pin_eq_ok_iff.mp hpin
      exact ⟨hspaced, hlength⟩
    · rintro ⟨hspaced, hlength⟩
      have hbytes : (spell (digits (body value))).length = 32 := spell_length hlength
      exact ⟨⟨(spell (digits (body value))).toArray, hbytes⟩,
        parseSha256Pin_eq_ok_iff.mpr ⟨hspaced, hlength, rfl⟩⟩
  · exact (parseSha256Pin_eq_ok_iff.mp h).2.2
  · intro pin lead marker text trail hlead hmarker htext hcase htrail
    have hlength : (digits text).length = 64 := by
      rw [← length_hexText pin, ← hcase, List.length_map]
    have hsome : digits text ≠ [] := by
      intro hnil
      rw [hnil] at hlength
      cases hlength
    obtain ⟨hspaced, hsame⟩ := body_eq hlead hmarker htext hsome htrail
    refine parseSha256Pin_eq_ok_iff.mpr ⟨hspaced, ?_, ?_⟩
    · rw [hsame, hlength]
    · rw [hsame, ← spell_map_toLower (hdigits text), hcase, hexText, spell_flatMap_byteText]
  · intro value value' pin pin' hpin hpin'
    obtain ⟨-, hlength, hspell⟩ := parseSha256Pin_eq_ok_iff.mp hpin
    obtain ⟨-, hlength', hspell'⟩ := parseSha256Pin_eq_ok_iff.mp hpin'
    rw [← Vector.toList_inj, hspell, hspell']
    refine spell_eq_iff (hdigits _) (hdigits _) (hlength.trans hlength'.symm) ?_
    rw [hlength]

example : parseSha256Pin (" 0X" ++ String.join (List.replicate 32 "aB:") ++ "\n") =
    .ok (Vector.replicate 32 0xab) := by decide +kernel

end ShadowSocketProxy.TlsRustls
