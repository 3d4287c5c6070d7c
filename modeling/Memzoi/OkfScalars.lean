/-
# Scalars of a record file: what YAML makes of them

Source: `okf.rs` (`push_yaml_string`, `quote_yaml_string`, `is_plain_yaml_scalar`).

The writer prints a text as a bare word or as a JSON string, and the reader is
a YAML parser. A word can be a null or a dash, and a JSON string can hold what
YAML refuses, or what it folds. `KeptField` is what comes back.
-/

import Memzoi.OkfRules
import Memzoi.Lib.YamlScalar

namespace Memzoi
namespace Okf

open Fallible YamlScalar

/-! ### Escapes -/

theorem hexValue_hexDigit : ∀ n < 16, hexValue (hexDigit n) = some n := by decide

theorem unescape_cons {c : Char} (hquote : c ≠ '"') (hslash : c ≠ '\\') (rest : List Char) :
    unescape (c :: rest) = (unescape rest).map (c :: ·) := by
  rw [unescape]
  · exact fun a b cs h _ => hslash h
  · exact fun d cs h _ => hslash h
  · exact hquote

theorem unescape_hex {a b : Char} {high low : Nat} (ha : hexValue a = some high)
    (hb : hexValue b = some low) (rest : List Char) :
    unescape ( '\\' :: 'u' :: '0' :: '0' :: a :: b :: rest) =
      (unescape rest).map (Char.ofNat (16 * high + low) :: ·) := by
  rw [unescape, ha, hb]
  cases unescape rest <;> rfl

theorem unescape_letter {c value : Char} (h : escapeValue c = some value) (rest : List Char) :
    unescape ( '\\' :: c :: rest) = (unescape rest).map (value :: ·) := by
  have hletter : c ≠ 'u' := by
    rintro rfl
    cases h
  rw [unescape]
  · rw [h]
    cases unescape rest <;> rfl
  · exact fun a b cs h _ => hletter h

/-- An escaped character is read as the character. -/
theorem unescape_jsonEscape (c : Char) (rest : List Char) :
    unescape (jsonEscape c ++ rest) = (unescape rest).map (c :: ·) := by
  unfold jsonEscape
  split_ifs with hquote hslash hlf hcr htab hback hfeed hcontrol
  · rw [hquote]
    exact unescape_letter (by decide) rest
  · rw [hslash]
    exact unescape_letter (by decide) rest
  · rw [hlf]
    exact unescape_letter (by decide) rest
  · rw [hcr]
    exact unescape_letter (by decide) rest
  · rw [htab]
    exact unescape_letter (by decide) rest
  · have hc : c = Char.ofNat 8 := by rw [← hback, Char.ofNat_toNat]
    rw [hc]
    exact unescape_letter (by decide) rest
  · have hc : c = Char.ofNat 12 := by rw [← hfeed, Char.ofNat_toNat]
    rw [hc]
    exact unescape_letter (by decide) rest
  · have hhex := unescape_hex (hexValue_hexDigit (c.toNat / 16) (by omega))
      (hexValue_hexDigit (c.toNat % 16) (Nat.mod_lt _ (by omega))) rest
    rw [Nat.div_add_mod, Char.ofNat_toNat] at hhex
    exact hhex
  · exact unescape_cons hquote hslash rest

theorem unescape_jsonString (value : List Char) :
    unescape (value.flatMap jsonEscape ++ [ '"']) = some value := by
  induction value with
  | nil => rfl
  | cons c value ih =>
      rw [List.flatMap_cons, List.append_assoc, unescape_jsonEscape, ih]
      rfl

theorem hexDigit_isPrintable : ∀ n < 16, isPrintable (hexDigit n) = true := by decide

/-- An escape is printable; a character that is printed as it is may not be. -/
theorem jsonEscape_isPrintable (c : Char) :
    (jsonEscape c).all isPrintable = (decide (c.toNat < 32) || isPrintable c) := by
  unfold jsonEscape
  split_ifs with hquote hslash hlf hcr htab hback hfeed hcontrol
  · rw [hquote]
    decide
  · rw [hslash]
    decide
  · rw [hlf]
    decide
  · rw [hcr]
    decide
  · rw [htab]
    decide
  · rw [hback]
    rfl
  · rw [hfeed]
    rfl
  · have hhigh := hexDigit_isPrintable (c.toNat / 16) (by omega)
    have hlow := hexDigit_isPrintable (c.toNat % 16) (Nat.mod_lt _ (by omega))
    rw [decide_eq_true hcontrol, Bool.true_or]
    simp only [List.all_cons, hhigh, hlow, List.all_nil]
    decide
  · rw [decide_eq_false hcontrol, Bool.false_or, List.all_cons, List.all_nil, Bool.and_true]

/-! ### Texts -/

/-- A text that YAML accepts as it is printed. -/
structure ReadableText (value : List Char) : Prop where
  noDash : value ≠ [ '-']
  printable : ∀ c ∈ value, c.toNat < 32 ∨ isPrintable c = true
  noMark : hasMark value = false

/-- A text that YAML gives back as it was. -/
structure KeptText (value : List Char) : Prop extends ReadableText value where
  unfolded : Unfolded value

/-- A field that may be missing loses the words for nothing as well. -/
def nullWords : List (List Char) := ["null".toList, "Null".toList, "NULL".toList]

structure KeptField (value : List Char) : Prop extends KeptText value where
  noNull : value ∉ nullWords

instance (value : List Char) : Decidable (ReadableText value) :=
  decidable_of_iff (value ≠ [ '-'] ∧
      value.all (fun c => decide (c.toNat < 32) || isPrintable c) = true ∧ hasMark value = false)
    (by
      simp only [List.all_eq_true, Bool.or_eq_true, decide_eq_true_eq]
      exact ⟨fun h => ⟨h.1, h.2.1, h.2.2⟩, fun h => ⟨h.noDash, h.printable, h.noMark⟩⟩)

instance (value : List Char) : Decidable (KeptText value) :=
  decidable_of_iff (ReadableText value ∧ Unfolded value)
    ⟨fun h => ⟨h.1, h.2⟩, fun h => ⟨h.toReadableText, h.unfolded⟩⟩

instance (value : List Char) : Decidable (KeptField value) :=
  decidable_of_iff (KeptText value ∧ value ∉ nullWords)
    ⟨fun h => ⟨h.1, h.2⟩, fun h => ⟨h.toKeptText, h.noNull⟩⟩

theorem isPlain_char {value : List Char} (h : isPlainYamlScalar value = true) {c : Char}
    (hc : c ∈ value) : 0x2D ≤ c.toNat ∧ c.toNat ≤ 0x7A := by
  obtain ⟨_, hall⟩ := Bool.and_eq_true_iff.1 h
  have hchar := List.all_eq_true.1 hall c hc
  simp only [Bool.or_eq_true, decide_eq_true_eq] at hchar
  rcases hchar with (((halnum | rfl) | rfl) | rfl) | rfl
  · simp only [Char.isAlphanum, Char.isAlpha, Char.isUpper, Char.isLower, Char.isDigit,
      Bool.or_eq_true, Bool.and_eq_true, decide_eq_true_eq, ge_iff_le, UInt32.le_iff_toNat_le]
      at halnum
    have hupper : 'A'.val.toNat = 0x41 ∧ 'Z'.val.toNat = 0x5A := by decide
    have hlower : 'a'.val.toNat = 0x61 ∧ 'z'.val.toNat = 0x7A := by decide
    have hdigit : '0'.val.toNat = 0x30 ∧ '9'.val.toNat = 0x39 := by decide
    show 0x2D ≤ c.val.toNat ∧ c.val.toNat ≤ 0x7A
    omega
  all_goals decide

/-- Nothing between a dash and the letter z is white space to a YAML scanner. -/
theorem not_space_of_bounds {c : Char} (h : 0x2D ≤ c.toNat ∧ c.toNat ≤ 0x7A) :
    isBlank c = false ∧ isBreak c = false := by
  have hne : ∀ d : Char, d.toNat < 0x2D ∨ 0x7A < d.toNat → c ≠ d := by
    rintro d hd rfl
    omega
  constructor
  · exact decide_eq_false (hne ' ' (by decide))
  · have hnel : c ≠ nel := hne nel (by decide)
    have hls : ¬ c.toNat = 0x2028 := by omega
    have hps : ¬ c.toNat = 0x2029 := by omega
    simp [isBreak, hnel, hls, hps]

theorem hasMark_of_not_isBreak {value : List Char} (h : ∀ c ∈ value, isBreak c = false) :
    hasMark value = false := by
  induction value with
  | nil => rfl
  | cons c value ih =>
      rw [hasMark, h c List.mem_cons_self, ih fun d hd => h d (List.mem_cons_of_mem c hd)]
      rfl

theorem keptText_of_bounds {value : List Char}
    (h : ∀ c ∈ value, 0x2D ≤ c.toNat ∧ c.toNat ≤ 0x7A) (hdash : value ≠ [ '-']) :
    KeptText value where
  noDash := hdash
  printable c hc := by
    have hbounds := h c hc
    right
    simp only [isPrintable, Bool.or_eq_true, Bool.and_eq_true, decide_eq_true_eq]
    omega
  noMark := hasMark_of_not_isBreak fun c hc => (not_space_of_bounds (h c hc)).2
  unfolded := by
    constructor
    · intro hnel
      have hbounds := h _ hnel
      revert hbounds
      decide
    · refine (List.pairwise_of_forall_mem_list fun a ha b hb => ?_).isChain
      obtain ⟨hblank, hbreak⟩ := not_space_of_bounds (h a ha)
      rw [clash, hblank, hbreak]
      rfl

/-- A word is kept, unless it is a dash. -/
theorem keptText_of_isPlain {value : List Char} (h : isPlainYamlScalar value = true)
    (hdash : value ≠ [ '-']) : KeptText value :=
  keptText_of_bounds (fun _ hc => isPlain_char h hc) hdash

/-! ### Reading what was printed -/

theorem quote_of_isPlain {value : List Char} (h : isPlainYamlScalar value = true) :
    quoteYamlString value = value := if_pos h

theorem quote_of_not_isPlain {value : List Char} (h : ¬ isPlainYamlScalar value = true) :
    quoteYamlString value = '"' :: (value.flatMap jsonEscape ++ [ '"']) := if_neg h

theorem all_isPrintable_iff (value : List Char) :
    (value.flatMap jsonEscape ++ [ '"']).all isPrintable = true ↔
      ∀ c ∈ value, c.toNat < 32 ∨ isPrintable c = true := by
  have hquote : [ '"'].all isPrintable = true := by decide
  simp only [List.all_append, List.all_flatMap, hquote, Bool.and_true, List.all_eq_true,
    jsonEscape_isPrintable, Bool.or_eq_true, decide_eq_true_eq]

/-- A printed text is read, and folded. -/
theorem readText_quote_iff {value text : List Char} :
    readText (quoteYamlString value) = some text ↔
      ReadableText value ∧ text = fold (.blanks []) value := by
  by_cases hplain : isPlainYamlScalar value = true
  · have hhead : value.head? ≠ some '"' := by
      intro h
      have hbounds := isPlain_char hplain (List.mem_of_head? h)
      revert hbounds
      decide
    rw [quote_of_isPlain hplain, readText, if_neg hhead]
    by_cases hdash : value = [ '-']
    · rw [if_pos hdash]
      exact ⟨fun h => (Option.some_ne_none _ h.symm).elim, fun h => absurd hdash h.1.noDash⟩
    · have hkept := keptText_of_isPlain hplain hdash
      rw [if_neg hdash, fold_eq_iff.2 hkept.unfolded, Option.some.injEq]
      exact ⟨fun h => ⟨hkept.toReadableText, h.symm⟩, fun h => h.2.symm⟩
  · have hdash : value ≠ [ '-'] := by
      rintro rfl
      exact hplain (by decide)
    rw [quote_of_not_isPlain hplain, readText, List.head?_cons, if_pos rfl, readQuoted]
    by_cases hprintable : ∀ c ∈ value, c.toNat < 32 ∨ isPrintable c = true
    · rw [if_pos ((all_isPrintable_iff value).2 hprintable), unescape_jsonString, Option.bind_some]
      cases hmark : hasMark value with
      | true =>
          refine ⟨fun h => (by cases h), fun h => ?_⟩
          rw [h.1.noMark] at hmark
          cases hmark
      | false =>
          rw [if_neg (by decide), Option.some.injEq]
          exact ⟨fun h => ⟨⟨hdash, hprintable, hmark⟩, h.symm⟩, fun h => h.2.symm⟩
    · rw [if_neg fun h => hprintable ((all_isPrintable_iff value).1 h)]
      exact ⟨fun h => (by cases h), fun h => absurd h.1.printable hprintable⟩

theorem isNull_quote (value : List Char) :
    isNull (quoteYamlString value) = decide (value ∈ nullWords) := by
  by_cases hplain : isPlainYamlScalar value = true
  · have htilde : value ≠ "~".toList := by
      rintro rfl
      revert hplain
      decide
    rw [quote_of_isPlain hplain, isNull, decide_eq_false htilde, Bool.or_false, nullWords]
    simp only [List.mem_cons, List.not_mem_nil, or_false, Bool.decide_or, Bool.or_assoc]
  · have hword : value ∉ nullWords := by
      intro h
      refine hplain ?_
      simp only [nullWords, List.mem_cons, List.not_mem_nil, or_false] at h
      rcases h with rfl | rfl | rfl
      all_goals decide
    rw [quote_of_not_isPlain hplain, decide_eq_false hword]
    simp [isNull]

/-! ### Fields -/

/-- A text field as the reader finds it. -/
def readField (value : String) : Option (Option String) :=
  (readOptional (quoteYamlString value.toList)).map (·.map String.ofList)

def readOptionalField : Option String → Option (Option String)
  | none => some none
  | some value => readField value

def readItem (value : String) : Option String :=
  (readText (quoteYamlString value.toList)).map String.ofList

theorem readField_eq_some_iff {value text : String} :
    readField value = some (some text) ↔ ReadableText value.toList ∧ value.toList ∉ nullWords ∧
      text = String.ofList (fold (.blanks []) value.toList) := by
  unfold readField readOptional
  rw [isNull_quote]
  by_cases hnull : value.toList ∈ nullWords
  · rw [decide_eq_true hnull, if_pos rfl]
    exact ⟨fun h => (by cases h), fun h => absurd hnull h.2.1⟩
  · rw [decide_eq_false hnull, if_neg (by decide), Option.map_map]
    simp only [Option.map_eq_some_iff, Function.comp, Option.map_some, Option.some.injEq,
      readText_quote_iff]
    constructor
    · rintro ⟨chars, ⟨hread, rfl⟩, rfl⟩
      exact ⟨hread, hnull, rfl⟩
    · rintro ⟨hread, _, rfl⟩
      exact ⟨_, ⟨hread, rfl⟩, rfl⟩

theorem readItem_eq_some_iff {value text : String} :
    readItem value = some text ↔ ReadableText value.toList ∧
      text = String.ofList (fold (.blanks []) value.toList) := by
  unfold readItem
  simp only [Option.map_eq_some_iff, readText_quote_iff]
  constructor
  · rintro ⟨chars, ⟨hread, rfl⟩, rfl⟩
    exact ⟨hread, rfl⟩
  · rintro ⟨hread, rfl⟩
    exact ⟨_, ⟨hread, rfl⟩, rfl⟩

/-- A text is there to be read, or stands for nothing. -/
theorem readField_isSome_iff {value : String} :
    (readField value).isSome = true ↔ ReadableText value.toList := by
  unfold readField readOptional
  rw [isNull_quote, Option.isSome_map]
  by_cases hnull : value.toList ∈ nullWords
  · rw [decide_eq_true hnull, if_pos rfl]
    refine ⟨fun _ => ?_, fun _ => rfl⟩
    simp only [nullWords, List.mem_cons, List.not_mem_nil, or_false] at hnull
    refine (keptText_of_isPlain ?_ ?_).toReadableText
    · rcases hnull with h | h | h
      all_goals
        rw [h]
        decide
    · rcases hnull with h | h | h
      all_goals
        rw [h]
        decide
  · rw [decide_eq_false hnull, if_neg (by decide), Option.isSome_map, Option.isSome_iff_exists]
    simp only [readText_quote_iff, exists_and_left, exists_eq, and_true]

theorem isWhitespace_of_space {c : Char} (h : isBlank c = true ∨ isBreak c = true) :
    Text.isWhitespace c = true := by
  rcases h with h | h
  · rw [of_decide_eq_true h]
    rfl
  · simp only [isBreak, Bool.or_eq_true, decide_eq_true_eq] at h
    rcases h with (rfl | h) | h
    · rfl
    · rw [Text.isWhitespace, h]
      rfl
    · rw [Text.isWhitespace, h]
      rfl

/-- Folding keeps the ends of a trimmed text. -/
theorem trimChars_fold {value : List Char} (h : Text.trimChars value = value) :
    Text.trimChars (fold (.blanks []) value) = fold (.blanks []) value := by
  have hspace : ∀ {c : Char}, Text.isWhitespace c = false →
      ¬ isBlank c = true ∧ ¬ isBreak c = true := by
    intro c hc
    constructor
    · intro hblank
      rw [isWhitespace_of_space (Or.inl hblank)] at hc
      cases hc
    · intro hbreak
      rw [isWhitespace_of_space (Or.inr hbreak)] at hc
      cases hc
  refine Text.trimChars_eq_self ?_ ?_
  · cases value with
    | nil => exact fun c hc => by cases hc
    | cons d value =>
        have hd : Text.isWhitespace d = false := by
          refine Text.head?_trimChars (?_ : d ∈ (Text.trimChars (d :: value)).head?)
          rw [h]
          rfl
        obtain ⟨hblank, hbreak⟩ := hspace hd
        intro c hc
        rw [fold_of_other value hblank hbreak] at hc
        cases hc
        exact hd
  · rcases List.eq_nil_or_concat value with rfl | ⟨before, d, rfl⟩
    · exact fun c hc => by cases hc
    · rw [List.concat_eq_append] at h ⊢
      have hd : Text.isWhitespace d = false := by
        refine Text.getLast?_trimChars (?_ : d ∈ (Text.trimChars (before ++ [d])).getLast?)
        rw [h]
        simp
      obtain ⟨hblank, hbreak⟩ := hspace hd
      obtain ⟨out, hout⟩ := fold_concat hblank hbreak before (.blanks [])
      intro c hc
      rw [hout, List.getLast?_concat] at hc
      cases hc
      exact hd

theorem trim_fold {value : String} (h : Text.trim value = value) :
    Text.trim (String.ofList (fold (.blanks []) value.toList)) =
      String.ofList (fold (.blanks []) value.toList) := by
  have hchars : Text.trimChars value.toList = value.toList := by
    have hlist := congrArg String.toList h
    rwa [Text.trim, String.toList_ofList] at hlist
  rw [Text.trim, String.toList_ofList, trimChars_fold hchars]

theorem ofList_fold_eq_iff {value : String} :
    String.ofList (fold (.blanks []) value.toList) = value ↔ Unfolded value.toList := by
  rw [← fold_eq_iff]
  constructor
  · intro h
    have hlist := congrArg String.toList h
    rwa [String.toList_ofList] at hlist
  · intro h
    rw [h, String.ofList_toList]

/-- A required text comes back as it was exactly when it is kept. -/
theorem requiredString_read_iff {value key : String} (hclean : Clean value) :
    (∃ found, readField value = some found ∧ requiredString found key = .ok value) ↔
      KeptField value.toList := by
  constructor
  · rintro ⟨found, hread, hrequired⟩
    obtain ⟨text, hsome, hrequired⟩ := bind_eq_ok.1 hrequired
    obtain ⟨_, hrequired⟩ := check_bind_eq_ok.1 hrequired
    rw [require_eq_ok.1 hsome, readField_eq_some_iff] at hread
    obtain ⟨hreadable, hnull, rfl⟩ := hread
    have hsame : Text.trim (String.ofList (fold (.blanks []) value.toList)) = value :=
      Except.ok.inj hrequired
    rw [trim_fold hclean.1, ofList_fold_eq_iff] at hsame
    exact ⟨⟨hreadable, hsame⟩, hnull⟩
  · intro h
    have hsame := ofList_fold_eq_iff.2 h.unfolded
    exact ⟨some value, readField_eq_some_iff.2 ⟨h.toReadableText, h.noNull, hsame.symm⟩,
      requiredString_of_clean hclean key⟩

theorem optionalString_read_iff {value : Option String} {key : String}
    (hclean : ∀ text ∈ value, Clean text) :
    (∃ found, readOptionalField value = some found ∧ optionalString found key = .ok value) ↔
      ∀ text ∈ value, KeptField text.toList := by
  cases value with
  | none => exact ⟨fun _ text htext => (by cases htext), fun _ => ⟨none, rfl, rfl⟩⟩
  | some value =>
      have hvalue := hclean value rfl
      constructor
      · rintro ⟨found, hread, hoptional⟩ text htext
        cases htext
        cases found with
        | none => cases hoptional
        | some raw =>
            obtain ⟨hne, hoptional⟩ := check_bind_eq_ok.1 hoptional
            have hrequired : requiredString (some raw) key = .ok value :=
              check_bind_eq_ok.2 ⟨hne, congrArg Except.ok
                (Option.some.inj (Except.ok.inj hoptional))⟩
            exact (requiredString_read_iff hvalue).1 ⟨some raw, hread, hrequired⟩
      · intro h
        have hkept := h value rfl
        exact ⟨some value, readField_eq_some_iff.2 ⟨hkept.toReadableText, hkept.noNull,
          (ofList_fold_eq_iff.2 hkept.unfolded).symm⟩, optionalString_of_clean hclean key⟩

/-! ### Lists -/

def readItems : List String → Option (List String)
  | [] => some []
  | item :: items => do
    let text ← readItem item
    let texts ← readItems items
    some (text :: texts)

theorem readItem_eq_self_iff {item : String} :
    readItem item = some item ↔ KeptText item.toList := by
  rw [readItem_eq_some_iff]
  constructor
  · rintro ⟨hreadable, hsame⟩
    exact ⟨hreadable, ofList_fold_eq_iff.1 hsame.symm⟩
  · intro h
    exact ⟨h.toReadableText, (ofList_fold_eq_iff.2 h.unfolded).symm⟩

theorem readItems_eq_self_iff {items : List String} :
    readItems items = some items ↔ ∀ item ∈ items, KeptText item.toList := by
  induction items with
  | nil => exact ⟨fun _ item hitem => absurd hitem List.not_mem_nil, fun _ => rfl⟩
  | cons item items ih =>
      rw [List.forall_mem_cons, ← ih, ← readItem_eq_self_iff]
      constructor
      · intro h
        obtain ⟨text, htext, h⟩ := Option.bind_eq_some_iff.1 h
        obtain ⟨texts, htexts, h⟩ := Option.bind_eq_some_iff.1 h
        cases h
        exact ⟨htext, htexts⟩
      · rintro ⟨hitem, hitems⟩
        exact Option.bind_eq_some_iff.2 ⟨item, hitem, Option.bind_eq_some_iff.2 ⟨items, hitems, rfl⟩⟩

theorem trim_readItems {items texts : List String} (h : readItems items = some texts)
    (htrim : ∀ item ∈ items, Text.trim item = item) : ∀ text ∈ texts, Text.trim text = text := by
  induction items generalizing texts with
  | nil =>
      cases h
      exact fun text htext => absurd htext List.not_mem_nil
  | cons item items ih =>
      obtain ⟨head, hhead, h⟩ := Option.bind_eq_some_iff.1 h
      obtain ⟨rest, hrest, h⟩ := Option.bind_eq_some_iff.1 h
      cases h
      rw [List.forall_mem_cons]
      refine ⟨?_, ih hrest fun x hx => htrim x (List.mem_cons_of_mem _ hx)⟩
      rw [(readItem_eq_some_iff.1 hhead).2]
      exact trim_fold (htrim item List.mem_cons_self)

theorem validateAppliesTo_read_iff {paths : List String}
    (hpaths : validateAppliesTo paths = .ok paths) :
    (∃ texts, readItems paths = some texts ∧ validateAppliesTo texts = .ok paths) ↔
      ∀ path ∈ paths, KeptText path.toList := by
  rw [← readItems_eq_self_iff]
  constructor
  · rintro ⟨texts, hread, hvalid⟩
    have htrim := trim_readItems hread (validateAppliesTo_trims hpaths)
    rw [← validateAppliesTo_fixed htrim hvalid] at hread
    exact hread
  · intro h
    exact ⟨paths, h, hpaths⟩

end Okf
end Memzoi
