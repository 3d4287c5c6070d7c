/-
# Payment card numbers in a line of text

Source: `capture.rs` (`contains_payment_card_number`,
`valid_payment_card_digits`).

The scanner collects digits across spaces and hyphens and judges the whole run
when another character ends it. So it finds exactly the card numbers that stand
alone in their run (`containsPaymentCardNumber_iff`): one that a space or a
hyphen separates from another number is judged together with that number.
-/

import Mathlib

namespace Memzoi
namespace Capture

/-- The separators a candidate may contain. -/
def isCardSeparator (character : Char) : Bool := character = ' ' || character = '-'

/-- `(character as u8) - b'0'`. -/
def digitValue (character : Char) : Nat := character.toNat - 48

/-- What one digit adds to the Luhn sum. -/
def luhnValue (parity index digit : Nat) : Nat :=
  if index % 2 = parity then
    if 9 < digit * 2 then digit * 2 - 9 else digit * 2
  else digit

def validPaymentCardDigits (digits : List Nat) : Bool :=
  if !(13 ≤ digits.length && digits.length ≤ 19) || digits.all (· = digits.headD 0) then false
  else
    let parity := digits.length % 2
    (digits.mapIdx (luhnValue parity)).sum % 10 = 0

/-- The loop over the characters, with its two variables. -/
def scanCards (digits : List Nat) (inCandidate : Bool) : List Char → Bool
  | [] => false
  | character :: rest =>
    if character.isDigit then scanCards (digits ++ [digitValue character]) true rest
    else if inCandidate && isCardSeparator character then scanCards digits inCandidate rest
    else if inCandidate then
      if validPaymentCardDigits digits then true else scanCards [] false rest
    else scanCards digits inCandidate rest

def containsPaymentCardNumber (line : String) : Bool :=
  scanCards [] false (line.toList ++ ['\x00'])

/-! ### Card numbers -/

/-- The digits among the characters. -/
def digitsOf (characters : List Char) : List Nat :=
  (characters.filter Char.isDigit).map digitValue

/-- Digits and separators, with a digit at both ends, that are valid as a card number. -/
structure CardNumber (characters : List Char) : Prop where
  first : ∃ digit ∈ characters.head?, digit.isDigit
  last : ∃ digit ∈ characters.getLast?, digit.isDigit
  run : ∀ character ∈ characters, character.isDigit ∨ isCardSeparator character
  valid : validPaymentCardDigits (digitsOf characters)

/-- The line contains a card number whose ends are not directly adjacent to another digit. -/
def HasCardNumber (line : String) : Prop :=
  ∃ before card after, line.toList = before ++ card ++ after ∧ CardNumber card ∧
    (∀ character ∈ before.getLast?, ¬ character.isDigit) ∧
    ∀ character ∈ after.head?, ¬ character.isDigit

/-- Only separators stand between the last digit of the text and its end. -/
def JoinedBefore (before : List Char) : Prop :=
  ∃ front digit separators, before = front ++ digit :: separators ∧ digit.isDigit ∧
    ∀ character ∈ separators, isCardSeparator character

/-- Only separators stand between the start of the text and its first digit. -/
def JoinedAfter (after : List Char) : Prop :=
  ∃ separators digit back, after = separators ++ digit :: back ∧ digit.isDigit ∧
    ∀ character ∈ separators, isCardSeparator character

/-- The line contains a card number that no separators join to another digit. -/
def HasLoneCardNumber (line : String) : Prop :=
  ∃ before card after, line.toList = before ++ card ++ after ∧ CardNumber card ∧
    ¬ JoinedBefore before ∧ ¬ JoinedAfter after

/-! ### What joins a card number to another digit -/

theorem isCardSeparator_of_isDigit {character : Char} (h : character.isDigit) :
    isCardSeparator character = false := by
  rw [isCardSeparator, Bool.or_eq_false_iff]
  constructor <;> (rw [decide_eq_false_iff_not]; rintro rfl; exact absurd h (by decide))

theorem joinedBefore_nil : ¬ JoinedBefore [] := by
  rintro ⟨front, digit, separators, h, -⟩
  simp at h

theorem joinedBefore_cons {character : Char} {rest : List Char} :
    JoinedBefore (character :: rest) ↔
      (character.isDigit ∧ ∀ c ∈ rest, isCardSeparator c) ∨ JoinedBefore rest := by
  constructor
  · rintro ⟨front, digit, separators, h, hdigit, hsep⟩
    rcases List.cons_eq_append_iff.1 h with ⟨rfl, hcons⟩ | ⟨tail, rfl, hrest⟩
    · obtain ⟨rfl, rfl⟩ := List.cons.inj hcons
      exact .inl ⟨hdigit, hsep⟩
    · exact .inr ⟨tail, digit, separators, hrest, hdigit, hsep⟩
  · rintro (⟨hdigit, hsep⟩ | ⟨front, digit, separators, rfl, hdigit, hsep⟩)
    · exact ⟨[], character, rest, rfl, hdigit, hsep⟩
    · exact ⟨character :: front, digit, separators, rfl, hdigit, hsep⟩

theorem joinedBefore_concat {front : List Char} {character : Char} :
    JoinedBefore (front ++ [character]) ↔
      character.isDigit ∨ (isCardSeparator character ∧ JoinedBefore front) := by
  constructor
  · rintro ⟨start, digit, separators, h, hdigit, hsep⟩
    rcases List.eq_nil_or_concat separators with rfl | ⟨init, last, rfl⟩
    · have hlast := (List.append_inj' h rfl).2
      rw [List.cons.inj hlast |>.1]
      exact .inl hdigit
    · rw [List.concat_eq_append] at h hsep
      have h' : front ++ [character] = (start ++ digit :: init) ++ [last] := by
        rw [h, List.append_assoc, List.cons_append]
      obtain ⟨hfront, hlast⟩ := List.append_inj' h' rfl
      obtain rfl : character = last := List.cons.inj hlast |>.1
      refine .inr ⟨hsep character (by simp), start, digit, init, hfront, hdigit, ?_⟩
      exact fun c hc => hsep c (by simp [hc])
  · rintro (hdigit | ⟨hchar, start, digit, separators, rfl, hdigit, hsep⟩)
    · exact ⟨front, character, [], rfl, hdigit, by simp⟩
    · refine ⟨start, digit, separators ++ [character], by simp, hdigit, fun c hc => ?_⟩
      rcases List.mem_append.1 hc with hc | hc
      · exact hsep c hc
      · rw [List.mem_singleton.1 hc]
        exact hchar

theorem joinedAfter_nil : ¬ JoinedAfter [] := by
  rintro ⟨separators, digit, back, h, -⟩
  simp at h

theorem joinedAfter_cons {character : Char} {rest : List Char} :
    JoinedAfter (character :: rest) ↔
      character.isDigit ∨ (isCardSeparator character ∧ JoinedAfter rest) := by
  constructor
  · rintro ⟨separators, digit, back, h, hdigit, hsep⟩
    rcases List.cons_eq_append_iff.1 h with ⟨rfl, hcons⟩ | ⟨tail, rfl, hrest⟩
    · rw [(List.cons.inj hcons).1] at hdigit
      exact .inl hdigit
    · exact .inr ⟨hsep _ List.mem_cons_self, tail, digit, back, hrest, hdigit,
        fun c hc => hsep c (List.mem_cons_of_mem _ hc)⟩
  · rintro (hdigit | ⟨hchar, separators, digit, back, rfl, hdigit, hsep⟩)
    · exact ⟨[], character, rest, rfl, hdigit, by simp⟩
    · exact ⟨character :: separators, digit, back, rfl, hdigit, by simpa using ⟨hchar, hsep⟩⟩

theorem not_joinedAfter_append {separators after : List Char}
    (hseps : ∀ character ∈ separators, isCardSeparator character)
    (hafter : ∀ character ∈ after.head?, ¬ character.isDigit ∧ ¬ isCardSeparator character) :
    ¬ JoinedAfter (separators ++ after) := by
  induction separators with
  | nil =>
    cases after with
    | nil => exact joinedAfter_nil
    | cons character rest =>
      have hend := hafter character rfl
      exact fun h => (joinedAfter_cons.1 h).elim hend.1 fun ⟨hsep, _⟩ => hend.2 hsep
  | cons separator separators ih =>
    intro h
    have hsep := hseps separator List.mem_cons_self
    rcases joinedAfter_cons.1 h with hdigit | ⟨-, hrest⟩
    · rw [isCardSeparator_of_isDigit hdigit] at hsep
      exact absurd hsep (by decide)
    · exact ih (fun c hc => hseps c (List.mem_cons_of_mem _ hc)) hrest

/-- What is not joined to a digit ends its run after some separators. -/
theorem split_of_not_joinedAfter {after : List Char} (h : ¬ JoinedAfter after) :
    ∃ separators rest, after = separators ++ rest ∧
      (∀ character ∈ separators, isCardSeparator character) ∧
      ∀ character ∈ rest.head?, ¬ character.isDigit ∧ ¬ isCardSeparator character := by
  induction after with
  | nil => exact ⟨[], [], rfl, by simp, by simp⟩
  | cons character after ih =>
    have hdigit : ¬ character.isDigit := fun hd => h (joinedAfter_cons.2 (.inl hd))
    by_cases hsep : isCardSeparator character
    · obtain ⟨separators, rest, rfl, hseps, hrest⟩ :=
        ih fun hj => h (joinedAfter_cons.2 (.inr ⟨hsep, hj⟩))
      exact ⟨character :: separators, rest, rfl, by simpa using ⟨hsep, hseps⟩, hrest⟩
    · refine ⟨[], character :: after, rfl, by simp, fun c hc => ?_⟩
      obtain rfl : character = c := by simpa using hc
      exact ⟨hdigit, hsep⟩

/-- A lone card number is one whose ends touch no digit. -/
theorem HasLoneCardNumber.hasCardNumber {line : String} (h : HasLoneCardNumber line) :
    HasCardNumber line := by
  obtain ⟨before, card, after, hline, hcard, hbefore, hafter⟩ := h
  refine ⟨before, card, after, hline, hcard, fun character hchar hdigit => ?_,
    fun character hchar hdigit => ?_⟩
  · obtain ⟨front, rfl⟩ := List.getLast?_eq_some_iff.1 hchar
    exact hbefore (joinedBefore_concat.2 (.inl hdigit))
  · obtain ⟨back, rfl⟩ := List.head?_eq_some_iff.1 hchar
    exact hafter ⟨[], character, back, rfl, hdigit, by simp⟩

/-! ### What the scanner has collected -/

@[simp] theorem digitsOf_append (front back : List Char) :
    digitsOf (front ++ back) = digitsOf front ++ digitsOf back := by
  simp [digitsOf]

theorem digitsOf_separators {characters : List Char}
    (h : ∀ character ∈ characters, isCardSeparator character) : digitsOf characters = [] := by
  rw [digitsOf, List.map_eq_nil_iff, List.filter_eq_nil_iff]
  intro character hchar hdigit
  have hsep := h character hchar
  rw [isCardSeparator_of_isDigit hdigit] at hsep
  exact absurd hsep (by decide)

/-- The text read so far, against the scanner's variables: outside a candidate no digit is joined
to what follows; inside one the digits are those of the open run. -/
def Collected (front : List Char) (digits : List Nat) : Bool → Prop
  | false => digits = [] ∧ ¬ JoinedBefore front
  | true => ∃ before run, front = before ++ run ∧ ¬ JoinedBefore before ∧
      (∃ digit ∈ run.head?, digit.isDigit) ∧
      (∀ character ∈ run, character.isDigit ∨ isCardSeparator character) ∧ digitsOf run = digits

theorem collected_digit {front : List Char} {digits : List Nat} {inCandidate : Bool}
    {character : Char} (h : Collected front digits inCandidate) (hdigit : character.isDigit) :
    Collected (front ++ [character]) (digits ++ [digitValue character]) true := by
  cases inCandidate with
  | false =>
    obtain ⟨rfl, hfront⟩ := h
    exact ⟨front, [character], rfl, hfront, ⟨character, rfl, hdigit⟩, by simp [hdigit],
      by simp [digitsOf, hdigit]⟩
  | true =>
    obtain ⟨before, run, rfl, hbefore, ⟨digit, hhead, hfirst⟩, hrun, rfl⟩ := h
    obtain ⟨tail, rfl⟩ := List.head?_eq_some_iff.1 hhead
    have hone : digitsOf [character] = [digitValue character] := by simp [digitsOf, hdigit]
    refine ⟨before, digit :: tail ++ [character], by simp, hbefore, ⟨digit, rfl, hfirst⟩,
      fun c hc => ?_, by rw [digitsOf_append, hone]⟩
    rcases List.mem_append.1 hc with hc | hc
    · exact hrun c hc
    · rw [List.mem_singleton.1 hc]
      exact .inl hdigit

theorem collected_separator {front : List Char} {digits : List Nat} {character : Char}
    (h : Collected front digits true) (hsep : isCardSeparator character) :
    Collected (front ++ [character]) digits true := by
  obtain ⟨before, run, rfl, hbefore, ⟨digit, hhead, hfirst⟩, hrun, rfl⟩ := h
  obtain ⟨tail, rfl⟩ := List.head?_eq_some_iff.1 hhead
  have hnone : digitsOf [character] = [] := digitsOf_separators (by simpa using hsep)
  refine ⟨before, digit :: tail ++ [character], by simp, hbefore, ⟨digit, rfl, hfirst⟩,
    fun c hc => ?_, by rw [digitsOf_append, hnone, List.append_nil]⟩
  rcases List.mem_append.1 hc with hc | hc
  · exact hrun c hc
  · rw [List.mem_singleton.1 hc]
    exact .inr hsep

theorem collected_outside {front : List Char} {character : Char} (hfront : ¬ JoinedBefore front)
    (hdigit : ¬ character.isDigit) : Collected (front ++ [character]) [] false :=
  ⟨rfl, fun h => (joinedBefore_concat.1 h).elim hdigit fun ⟨_, h⟩ => hfront h⟩

theorem collected_closed {front : List Char} {character : Char} (hdigit : ¬ character.isDigit)
    (hsep : ¬ isCardSeparator character) : Collected (front ++ [character]) [] false :=
  ⟨rfl, fun h => (joinedBefore_concat.1 h).elim hdigit fun ⟨h, _⟩ => hsep h⟩

/-- **A valid run holds a lone card number**: the run without the separators at its end. -/
theorem lone_of_run {before run after : List Char} (hbefore : ¬ JoinedBefore before)
    (hfirst : ∃ digit ∈ run.head?, digit.isDigit)
    (hrun : ∀ character ∈ run, character.isDigit ∨ isCardSeparator character)
    (hvalid : validPaymentCardDigits (digitsOf run))
    (hafter : ∀ character ∈ after.head?, ¬ character.isDigit ∧ ¬ isCardSeparator character) :
    HasLoneCardNumber (String.ofList (before ++ run ++ after)) := by
  obtain ⟨separators, hsplit⟩ := List.rdropWhile_prefix isCardSeparator run
  have hseps : ∀ c ∈ separators, isCardSeparator c := by
    have htake : separators = run.rtakeWhile isCardSeparator := by
      have h := List.rdropWhile_append_rtakeWhile (p := isCardSeparator) (l := run)
      exact List.append_cancel_left (hsplit.trans h.symm)
    intro c hc
    exact List.mem_rtakeWhile_imp (htake ▸ hc)
  generalize hcard : run.rdropWhile isCardSeparator = card at hsplit
  subst hsplit
  obtain ⟨digit, hhead, hdigit⟩ := hfirst
  have hne : card ≠ [] := by
    rintro rfl
    have hsep := hseps digit (List.mem_of_mem_head? hhead)
    rw [isCardSeparator_of_isDigit hdigit] at hsep
    exact absurd hsep (by decide)
  refine ⟨before, card, separators ++ after, by simp, ⟨⟨digit, ?_, hdigit⟩, ?_, ?_, ?_⟩,
    hbefore, ?_⟩
  · rwa [List.head?_append_of_ne_nil _ hne] at hhead
  · have hlast := List.rdropWhile_last_not isCardSeparator (card ++ separators) (by rwa [hcard])
    refine ⟨card.getLast hne, List.getLast?_eq_getLast_of_ne_nil hne, ?_⟩
    have hmem := hrun _ (List.mem_append_left separators (List.getLast_mem hne))
    refine hmem.resolve_right fun hsep => hlast ?_
    simpa only [hcard] using hsep
  · exact fun c hc => hrun c (List.mem_append_left _ hc)
  · rwa [digitsOf_append, digitsOf_separators hseps, List.append_nil] at hvalid
  · exact not_joinedAfter_append hseps hafter

/-- **Whatever the scanner finds stands alone**, from any point of the text on. -/
theorem lone_of_scanCards {rest front : List Char} {digits : List Nat} {inCandidate : Bool}
    (hfront : Collected front digits inCandidate)
    (h : scanCards digits inCandidate (rest ++ ['\x00']) = true) :
    HasLoneCardNumber (String.ofList (front ++ rest)) := by
  induction rest generalizing front digits inCandidate with
  | nil =>
    -- only the closing NUL is left: it ends the open run
    cases inCandidate with
    | false => exact absurd h (by simp [scanCards])
    | true =>
      obtain ⟨before, run, rfl, hbefore, hfirst, hrun, rfl⟩ := hfront
      have hvalid : validPaymentCardDigits (digitsOf run) = true := by
        simpa [scanCards, isCardSeparator] using h
      exact lone_of_run hbefore hfirst hrun hvalid (by simp)
  | cons character rest ih =>
    rw [List.append_cons]
    rw [List.cons_append, scanCards] at h
    split at h
    next hdigit => exact ih (collected_digit hfront hdigit) h
    next hdigit =>
    split at h
    next hopen =>
      rw [Bool.and_eq_true] at hopen
      obtain ⟨rfl, hsep⟩ := hopen
      exact ih (collected_separator hfront hsep) h
    next hopen =>
    split at h
    next htrue =>
      subst htrue
      have hsep : ¬ isCardSeparator character := by simpa using hopen
      split at h
      next hvalid =>
        obtain ⟨before, run, rfl, hbefore, hfirst, hrun, rfl⟩ := hfront
        rw [← List.append_cons]
        refine lone_of_run hbefore hfirst hrun hvalid fun c hc => ?_
        obtain rfl : character = c := by simpa using hc
        exact ⟨hdigit, hsep⟩
      next => exact ih (collected_closed hdigit hsep) h
    next hfalse =>
      obtain rfl : inCandidate = false := by simpa using hfalse
      obtain ⟨rfl, hout⟩ := hfront
      exact ih (collected_outside hout hdigit) h

/-- An open run is judged as a whole where another character ends it. -/
theorem scanCards_run {run rest : List Char} {digits : List Nat} {character : Char}
    (hrun : ∀ c ∈ run, c.isDigit ∨ isCardSeparator c) (hdigit : ¬ character.isDigit)
    (hsep : ¬ isCardSeparator character)
    (hvalid : validPaymentCardDigits (digits ++ digitsOf run)) :
    scanCards digits true (run ++ character :: rest) = true := by
  induction run generalizing digits with
  | nil =>
    have hvalid' : validPaymentCardDigits digits = true := by simpa [digitsOf] using hvalid
    simp [scanCards, hdigit, hsep, hvalid']
  | cons first run ih =>
    have htail : ∀ c ∈ run, c.isDigit ∨ isCardSeparator c :=
      fun c hc => hrun c (List.mem_cons_of_mem _ hc)
    rw [List.cons_append, scanCards]
    by_cases hd : first.isDigit
    · rw [if_pos hd]
      refine ih htail ?_
      simpa [digitsOf, hd] using hvalid
    · have hs := (hrun first List.mem_cons_self).resolve_left hd
      rw [if_neg hd, if_pos (by rw [hs]; rfl)]
      refine ih htail ?_
      simpa [digitsOf, hd] using hvalid

/-- **The scanner reaches every lone card number**: inside a run it is not joined to the digits
collected so far, so the run ends before it. -/
theorem scanCards_of_lone {before card after : List Char} {digits : List Nat} {inCandidate : Bool}
    (hcard : CardNumber card) (hbefore : ¬ JoinedBefore before)
    (hopen : inCandidate → ∃ character ∈ before, ¬ isCardSeparator character)
    (hclosed : inCandidate = false → digits = []) (hafter : ¬ JoinedAfter after) :
    scanCards digits inCandidate (before ++ card ++ after ++ ['\x00']) = true := by
  induction before generalizing digits inCandidate with
  | nil =>
    obtain rfl : inCandidate = false := by
      cases inCandidate with
      | false => rfl
      | true => exact absurd (hopen rfl) (by simp)
    obtain rfl := hclosed rfl
    obtain ⟨⟨digit, hhead, hdigit⟩, -, hrun, hvalid⟩ := hcard
    obtain ⟨tail, rfl⟩ := List.head?_eq_some_iff.1 hhead
    obtain ⟨separators, rest, rfl, hseps, hrest⟩ := split_of_not_joinedAfter hafter
    -- the run goes on through the separators after the number, which add no digit
    have hend : ∃ character rest', rest ++ ['\x00'] = character :: rest' ∧
        ¬ character.isDigit ∧ ¬ isCardSeparator character := by
      cases rest with
      | nil => exact ⟨'\x00', [], rfl, by decide, by decide⟩
      | cons character rest => exact ⟨character, rest ++ ['\x00'], rfl, hrest character rfl⟩
    obtain ⟨character, rest', hrest', hd, hs⟩ := hend
    have htext : [] ++ digit :: tail ++ (separators ++ rest) ++ ['\x00'] =
        digit :: ((tail ++ separators) ++ character :: rest') := by
      rw [← hrest']
      simp
    rw [htext, scanCards, if_pos hdigit]
    refine scanCards_run (fun c hc => ?_) hd hs ?_
    · rcases List.mem_append.1 hc with hc | hc
      · exact hrun c (List.mem_cons_of_mem _ hc)
      · exact .inr (hseps c hc)
    · rw [digitsOf_append, digitsOf_separators hseps, List.append_nil]
      simpa [digitsOf, hdigit] using hvalid
  | cons character before ih =>
    rw [joinedBefore_cons, not_or] at hbefore
    obtain ⟨hhead, htail⟩ := hbefore
    rw [List.cons_append, List.cons_append, List.cons_append, scanCards]
    by_cases hdigit : character.isDigit
    · rw [if_pos hdigit]
      refine ih htail (fun _ => ?_) (by simp)
      by_contra hno
      exact hhead ⟨hdigit, fun c hc => by_contra fun hc' => hno ⟨c, hc, hc'⟩⟩
    · rw [if_neg hdigit]
      split
      next hjoin =>
        rw [Bool.and_eq_true] at hjoin
        refine ih htail (fun hin => ?_) hclosed
        obtain ⟨c, hc, hc'⟩ := hopen hin
        rcases List.mem_cons.1 hc with rfl | hc
        · exact absurd hjoin.2 hc'
        · exact ⟨c, hc, hc'⟩
      next hjoin =>
        split
        next =>
          split
          · rfl
          · exact ih htail (by simp) (by simp)
        next hin => exact ih htail (fun h => absurd h hin) hclosed

/-- **The detector finds exactly the lone card numbers.** -/
theorem containsPaymentCardNumber_iff {line : String} :
    containsPaymentCardNumber line = true ↔ HasLoneCardNumber line := by
  constructor
  · intro h
    have hstart : Collected [] [] false := ⟨rfl, joinedBefore_nil⟩
    simpa using lone_of_scanCards hstart h
  · rintro ⟨before, card, after, hline, hcard, hbefore, hafter⟩
    rw [containsPaymentCardNumber, hline]
    exact scanCards_of_lone hcard hbefore (by simp) (by simp) hafter

/-- **When the detector decides whether the line has a card number**: some card number of the line
stands alone, or the line has none. -/
theorem card_number_found_iff (line : String) :
    (containsPaymentCardNumber line = true ↔ HasCardNumber line) ↔
      (HasCardNumber line → HasLoneCardNumber line) := by
  rw [containsPaymentCardNumber_iff]
  constructor
  · exact fun h => h.2
  · exact fun h => ⟨HasLoneCardNumber.hasCardNumber, h⟩

/-- A card number followed by a space and a year is missed. -/
theorem card_with_year_missed :
    ¬ (containsPaymentCardNumber "4111 1111 1111 1111 2028" = true ↔
      HasCardNumber "4111 1111 1111 1111 2028") := by
  have hmissed : containsPaymentCardNumber "4111 1111 1111 1111 2028" = false := by decide +kernel
  have hrun : "4111 1111 1111 1111".toList.all (fun c => c.isDigit || isCardSeparator c) = true := by
    decide +kernel
  have hcard : CardNumber "4111 1111 1111 1111".toList :=
    ⟨⟨'4', by decide +kernel, by decide⟩, ⟨'1', by decide +kernel, by decide⟩,
      fun c hc => by simpa only [Bool.or_eq_true] using List.all_eq_true.1 hrun c hc,
      by decide +kernel⟩
  have hspace : " 2028".toList.head? = some ' ' := by decide +kernel
  have hhas : HasCardNumber "4111 1111 1111 1111 2028" := by
    refine ⟨[], "4111 1111 1111 1111".toList, " 2028".toList, by decide +kernel, hcard, by simp,
      fun c hc => ?_⟩
    rw [hspace] at hc
    rw [← Option.some.inj hc]
    decide
  intro h
  rw [h.2 hhas] at hmissed
  exact absurd hmissed (by decide)

end Capture
end Memzoi
