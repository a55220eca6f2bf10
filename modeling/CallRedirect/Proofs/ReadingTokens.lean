import CallRedirect.Json.Numeral
import CallRedirect.Proofs.ReadingSteps

/-!
# Words, strings and numbers are read locally

A word and a string end with a character of their own.  A number ends in front of the first
character that does not belong to it, and no character in front of which a value may end does.
-/

namespace CallRedirect.Json.Read

variable {α β : Type}

/-! ## Words and strings -/

theorem local_word (expected : List Char) : Local (word expected) := by
  induction expected with
  | nil => exact local_pure ()
  | cons c others ih =>
      intro text
      cases text with
      | nil => exact localAt_of_ne_ok fun _ _ => nofun
      | cons first tail =>
          by_cases hfirst : first = c
          · exact localAt_append [first] (fun tail => if_pos hfirst) (ih tail)
          · refine localAt_of_ne_ok fun value rest h => ?_
            rw [show word (c :: others) (first :: tail) = .error .expectedWord from
              if_neg hfirst] at h
            cases h

theorem length_of_mapM_eq_some {step : α → Option β} {items : List α} {values : List β}
    (h : items.mapM step = some values) : values.length = items.length := by
  induction items generalizing values with
  | nil =>
      cases h
      rfl
  | cons item items ih =>
      simp only [List.mapM_cons, Option.bind_eq_bind, Option.bind_eq_some_iff] at h
      obtain ⟨value, -, others, hothers, hvalues⟩ := h
      cases hvalues
      rw [List.length_cons, ih hothers, List.length_cons]

theorem local_readHex : Local readHex := by
  intro text value rest h
  unfold readHex at h
  cases hvalues : (text.take 4).mapM hexDigit? with
  | none =>
      simp only [hvalues] at h
      split at h <;> cases h
  | some values =>
      simp only [hvalues] at h
      split at h
      case isFalse => cases h
      case isTrue hlength =>
        cases h
        refine ⟨text.take 4, (List.take_append_drop 4 text).symm, fun other _ => ?_⟩
        have hdigits : (text.take 4).length = 4 := by
          rw [← length_of_mapM_eq_some hvalues, hlength]
        unfold readHex
        rw [List.take_left' hdigits, List.drop_left' hdigits]
        simp only [hvalues, hlength, if_true]

/-- A second half of a surrogate pair, from its backslash on. -/
theorem readLowSurrogate_cons_cons (high : Nat) (text : List Char) :
    readLowSurrogate high ('\\' :: 'u' :: text) = (readHex >>= fun low =>
      if low < 0xdc00 ∨ 0xdfff < low then fail .loneSurrogate
      else pure (Char.ofNat (0x10000 + (high - 0xd800) * 0x400 + (low - 0xdc00)))) text := by
  refine congrArg (readHex text >>= ·) (funext fun ⟨low, rest⟩ => ?_)
  by_cases hlow : low < 0xdc00 ∨ 0xdfff < low
  · simp only [hlow, if_true]
    rfl
  · simp only [hlow, if_false]
    rfl

theorem local_readLowSurrogate (high : Nat) : Local (readLowSurrogate high) := by
  intro text
  by_cases hpair : ∃ tail, text = '\\' :: 'u' :: tail
  · obtain ⟨tail, rfl⟩ := hpair
    refine localAt_append ['\\', 'u'] (readLowSurrogate_cons_cons high)
      ((local_readHex tail).bind fun low middle _ => ?_)
    split
    · exact localAt_fail _ middle
    · exact localAt_pure _ middle
  · refine localAt_of_ne_ok fun value rest h => ?_
    unfold readLowSurrogate at h
    split at h
    case h_1 tail => exact hpair ⟨tail, rfl⟩
    all_goals cases h

theorem readUnicode_eq : readUnicode = (readHex >>= fun unit =>
    if 0xdc00 ≤ unit ∧ unit ≤ 0xdfff then fail .loneSurrogate
    else if 0xd800 ≤ unit ∧ unit ≤ 0xdbff then readLowSurrogate unit
    else pure (Char.ofNat unit)) := by
  funext text
  refine congrArg (readHex text >>= ·) (funext fun ⟨unit, rest⟩ => ?_)
  by_cases hlow : 0xdc00 ≤ unit ∧ unit ≤ 0xdfff
  · simp only [hlow, and_self, if_true]
    rfl
  · simp only [hlow, if_false]
    by_cases hhigh : 0xd800 ≤ unit ∧ unit ≤ 0xdbff <;> simp only [hhigh] <;> rfl

theorem local_readUnicode : Local readUnicode := by
  rw [readUnicode_eq]
  refine local_readHex.bind fun unit => ?_
  split
  · exact local_fail _
  · split
    · exact local_readLowSurrogate unit
    · exact local_pure _

theorem readEscape_cons {c : Char} (hc : c ≠ 'u') (text : List Char) :
    readEscape (c :: text) =
      match shortEscape? c with
      | some decoded => .ok (decoded, text)
      | none => .error .invalidEscape := by
  unfold readEscape
  split
  · next heq => cases heq
  · next heq => exact absurd (List.cons.inj heq).1 hc
  · next heq =>
      cases heq
      rfl

theorem localAt_shortEscape (c : Char) (text : List Char)
    {escape : Read Char} (hescape : ∀ tail, escape (c :: tail) =
      match shortEscape? c with
      | some decoded => .ok (decoded, tail)
      | none => .error .invalidEscape) : LocalAt escape (c :: text) := by
  cases hc : shortEscape? c with
  | none =>
      refine localAt_of_ne_ok fun value rest h => ?_
      rw [hescape, hc] at h
      cases h
  | some decoded =>
      exact localAt_append [c] (fun tail => by rw [List.singleton_append, hescape, hc]; rfl)
        (localAt_pure decoded text)

theorem local_readEscape : Local readEscape := by
  intro text
  cases text with
  | nil => exact localAt_of_ne_ok fun _ _ => nofun
  | cons c tail =>
      by_cases hc : c = 'u'
      · rw [hc]
        exact localAt_append ['u'] (fun _ => rfl) (local_readUnicode tail)
      · exact localAt_shortEscape c tail (readEscape_cons hc)

/-- One round of a string: a character, or the closing quote. -/
def characterRound (escape : Read Char) : Read (Round Unit (List Char))
  | [] => .error .endInString
  | c :: text =>
    if c = '"' then .ok (.stop [], text)
    else if c = '\\' then (escape >>= fun decoded => pure (.more () (decoded :: ·)) : Read _) text
    else if c.toNat < 0x20 then .error .controlCharacter
    else .ok (.more () (c :: ·), text)

theorem readCharacters_succ (escape : Read Char) (fuel : Nat) :
    (readCharacters escape (fuel + 1) : Read (List Char)) =
      characterRound escape >>= Round.follow (fun _ => readCharacters escape fuel) := by
  funext text
  cases text with
  | nil => rfl
  | cons c text =>
      show _ = characterRound escape (c :: text) >>= fun result =>
        Round.follow (fun _ => readCharacters escape fuel) result.1 result.2
      rw [readCharacters, characterRound]
      split
      · rfl
      · split
        · show _ = (escape text >>= fun _ => _) >>= fun _ => _
          cases escape text with
          | error cause => rfl
          | ok result => rfl
        · split <;> rfl

theorem local_characterRound {escape : Read Char} (hescape : Local escape) :
    Local (characterRound escape) := by
  intro text
  cases text with
  | nil => exact localAt_of_ne_ok fun _ _ => nofun
  | cons c text =>
      by_cases hquote : c = '"'
      · exact localAt_append [c] (fun tail => if_pos hquote) (localAt_pure (Round.stop []) text)
      · by_cases hescaped : c = '\\'
        · exact localAt_append [c] (fun tail => (if_neg hquote).trans (if_pos hescaped))
            ((hescape text).bind fun _ middle _ => localAt_pure _ middle)
        · by_cases hcontrol : c.toNat < 0x20
          · refine localAt_of_ne_ok fun value rest h => ?_
            rw [characterRound, if_neg hquote, if_neg hescaped, if_pos hcontrol] at h
            cases h
          · exact localAt_append [c]
              (fun tail => (if_neg hquote).trans ((if_neg hescaped).trans (if_neg hcontrol)))
              (localAt_pure (Round.more () (c :: ·)) text)

theorem progresses_characterRound {escape : Read Char} (hescape : Local escape) :
    Progresses (characterRound escape) := by
  intro text result rest h
  cases text with
  | nil => cases h
  | cons c text =>
      rw [characterRound] at h
      split at h
      · cases h
        exact Nat.lt_succ_self _
      · split at h
        · obtain ⟨decoded, middle, hdecoded, hresult⟩ := bind_apply_eq_ok_iff.1 h
          cases hresult
          exact Nat.lt_succ_of_le (hescape.length_le hdecoded)
        · split at h
          · cases h
          · cases h
            exact Nat.lt_succ_self _

theorem boundedRounds_readCharacters {escape : Read Char} (hescape : Local escape) (fuel : Nat) :
    BoundedRounds (readCharacters escape) fuel :=
  boundedRounds_of_progress (fun _ => characterRound escape)
    (fun fuel _ => readCharacters escape fuel) (fun _ _ _ _ => nofun)
    (fun fuel _ => readCharacters_succ escape fuel) (fun _ => local_characterRound hescape)
    (fun _ => progresses_characterRound hescape) fuel ()

/-- How a string is read depends on the characters up to its closing quote. -/
theorem local_readCharacters {escape : Read Char} (hescape : Local escape) :
    Local (fun text => readCharacters escape (text.length + 1) text) := by
  intro text value rest h
  obtain ⟨used, rfl, htakes⟩ := boundedRounds_readCharacters hescape _ text value rest h
  refine ⟨used, rfl, fun other hother => htakes ((used ++ other).length + 1) ?_ other hother⟩
  rw [List.length_append]
  omega

theorem local_stringBody : Local stringBody :=
  (local_readCharacters local_readEscape).bind fun characters =>
    local_pure (String.ofList characters)

/-! ## Numbers -/

/-- Digits go on behind a text exactly if they go on in what may stand there. -/
theorem any_isDigit_head {rest other : List Char} (h : Continues rest other) :
    other.head?.any isDigit = rest.head?.any isDigit :=
  have hends : FailsAtEnds (·.any isDigit = true) := by decide
  Bool.eq_iff_iff.2 (h.head_iff hends)

theorem any_isDigit_head_dropWhile (text : List Char) :
    (text.dropWhile isDigit).head?.any isDigit = false := by
  have hhead := List.head?_dropWhile_not isDigit text
  cases hrest : (text.dropWhile isDigit).head? with
  | none => rfl
  | some c =>
      rw [hrest] at hhead
      simpa using hhead

/-- A run of digits is the same in front of what may stand behind it. -/
theorem digits_append {text other : List Char} (h : Continues (text.dropWhile isDigit) other) :
    (text.takeWhile isDigit ++ other).takeWhile isDigit = text.takeWhile isDigit ∧
      (text.takeWhile isDigit ++ other).dropWhile isDigit = other := by
  have hdigits : ∀ c ∈ text.takeWhile isDigit, isDigit c = true :=
    List.all_eq_true.1 List.all_takeWhile
  have hother : other.head?.any isDigit = false := by
    rw [any_isDigit_head h, any_isDigit_head_dropWhile]
  rw [List.takeWhile_append_of_pos hdigits, List.dropWhile_append_of_pos hdigits]
  cases other with
  | nil => simp
  | cons c tail =>
      have hc : ¬ isDigit c = true := by simpa using hother
      rw [List.takeWhile_cons_of_neg hc, List.dropWhile_cons_of_neg hc, List.append_nil]
      exact ⟨rfl, rfl⟩

theorem readDigits_of_head {text : List Char} (start : Nat)
    (h : text.head?.any isDigit = false) : readDigits start text = (start, [], text) := by
  cases text with
  | nil => rfl
  | cons c tail =>
      have hc : isDigit c = false := h
      rw [readDigits, hc]
      rfl

/-- Reading digits looks no further than they go. -/
theorem exists_readDigits_append {start value : Nat} {text ignored rest : List Char}
    (h : readDigits start text = (value, ignored, rest)) :
    ∃ used, text = used ++ rest ∧ ∀ other, Continues rest other →
      readDigits start (used ++ other) = (value, ignored, other) := by
  induction text generalizing start with
  | nil =>
      cases h
      exact ⟨[], rfl, fun other hother => readDigits_of_head _ (any_isDigit_head hother)⟩
  | cons c tail ih =>
      by_cases hc : isDigit c = true
      · by_cases hfits : 10 * start + digitValue c < wordLimit
        · have hnext : ∀ tail,
              readDigits start (c :: tail) = readDigits (10 * start + digitValue c) tail :=
            fun tail => (if_pos hc).trans (if_pos hfits)
          obtain ⟨used, rfl, hused⟩ := ih ((hnext tail).symm.trans h)
          exact ⟨c :: used, rfl, fun other hother => (hnext _).trans (hused other hother)⟩
        · -- the number is full here, and the digits that are left are passed over at once
          have hfull : ∀ tail, readDigits start (c :: tail) =
              (start, (c :: tail).takeWhile isDigit, (c :: tail).dropWhile isDigit) :=
            fun tail => (if_pos hc).trans (if_neg hfits)
          rw [hfull] at h
          cases h
          refine ⟨(c :: tail).takeWhile isDigit, List.takeWhile_append_dropWhile.symm,
            fun other hother => ?_⟩
          obtain ⟨htake, hdrop⟩ := digits_append hother
          rw [List.takeWhile_cons_of_pos hc, List.cons_append] at htake hdrop ⊢
          rw [hfull, htake, hdrop]
      · have hhead : (c :: tail).head?.any isDigit = false := by simpa using hc
        rw [readDigits_of_head start hhead] at h
        cases h
        exact ⟨[], rfl, fun other hother =>
          readDigits_of_head _ ((any_isDigit_head hother).trans hhead)⟩

theorem local_realNumber (negative : Bool) (significand : Nat) (exponent : Int) :
    Local (realNumber negative significand exponent) := by
  intro text
  cases hscaled : scaled? significand exponent with
  | none =>
      refine localAt_of_ne_ok fun value rest h => ?_
      rw [realNumber, hscaled] at h
      cases h
  | some magnitude =>
      exact localAt_append [] (fun tail => by rw [List.nil_append, realNumber, hscaled]; rfl)
        (localAt_pure (Number.real negative magnitude) text)

theorem local_integerNumber (negative : Bool) (value : Nat) :
    Local (integerNumber negative value) := by
  have heq : integerNumber negative value =
      (if ¬ negative then pure (.integer value)
      else if value = 0 ∨ maxNegated < value then realNumber true value 0
      else pure (.integer (-value)) : Read Number) := by
    funext text
    unfold integerNumber
    split
    · rfl
    · split <;> rfl
  rw [heq]
  split
  · exact local_pure _
  · split
    · exact local_realNumber true value 0
    · exact local_pure _

/-- The number that an exponent completes. -/
def exponentNumber (negative : Bool) (significand : Nat) (exponent : Int) (down : Prop)
    [Decidable down] (value : Nat) : Read Number :=
  if maxExponent < value then
    if significand ≠ 0 ∧ ¬ down then fail .numberOutOfRange else realNumber negative 0 0
  else realNumber negative significand (if down then exponent - value else exponent + value)

theorem local_exponentNumber (negative : Bool) (significand : Nat) (exponent : Int) (down : Prop)
    [Decidable down] (value : Nat) :
    Local (exponentNumber negative significand exponent down value) := by
  unfold exponentNumber
  split
  · split
    · exact local_fail _
    · exact local_realNumber negative 0 0
  · exact local_realNumber negative significand _

/-- The digits of an exponent behind its sign, and the number that they complete. -/
def exponentDigits (negative : Bool) (significand : Nat) (exponent : Int) (down : Prop)
    [Decidable down] : Read Number := fun text =>
  if text.head?.any isDigit then
    exponentNumber negative significand exponent down
      (Nat.ofDigitChars 10 (text.takeWhile isDigit) 0) (text.dropWhile isDigit)
  else .error (if text.isEmpty then .endInValue else .invalidNumber)

theorem local_exponentDigits (negative : Bool) (significand : Nat) (exponent : Int) (down : Prop)
    [Decidable down] : Local (exponentDigits negative significand exponent down) := by
  intro text value rest h
  by_cases hdigit : text.head?.any isDigit
  · rw [exponentDigits, if_pos hdigit] at h
    obtain ⟨used, hused, htakes⟩ :=
      local_exponentNumber negative significand exponent down _ _ value rest h
    refine ⟨text.takeWhile isDigit ++ used, ?_, fun other hother => ?_⟩
    · rw [List.append_assoc, ← hused, List.takeWhile_append_dropWhile]
    · have hrest := hother.append used
      rw [← hused] at hrest
      obtain ⟨htake, hdrop⟩ := digits_append hrest
      have hhead := any_isDigit_head (hrest.append (text.takeWhile isDigit))
      rw [List.takeWhile_append_dropWhile, hdigit] at hhead
      rw [List.append_assoc, exponentDigits, if_pos hhead, htake, hdrop]
      exact htakes other hother
  · rw [exponentDigits, if_neg hdigit] at h
    cases h

theorem readExponent_eq (negative : Bool) (significand : Nat) (exponent : Int)
    (text : List Char) :
    readExponent negative significand exponent text =
      exponentDigits negative significand exponent (text.head? = some '-')
        (if text.head? = some '-' ∨ text.head? = some '+' then text.drop 1 else text) := by
  simp only [readExponent]
  generalize (if text.head? = some '-' ∨ text.head? = some '+' then text.drop 1 else text) = digits
  cases digits with
  | nil => rfl
  | cons c tail =>
      show (if isDigit c = true then _ else _) = _
      unfold exponentDigits exponentNumber
      show _ = (if isDigit c = true then _ else _)
      split
      · split
        · split <;> rfl
        · rfl
      · rfl

/-- An exponent may have a sign in front of its digits. -/
theorem readExponent_eq_onFirst (negative : Bool) (significand : Nat) (exponent : Int) :
    readExponent negative significand exponent =
      onFirst (· = some '-')
        (advance >>= fun _ => exponentDigits negative significand exponent True)
        (onFirst (· = some '+')
          (advance >>= fun _ => exponentDigits negative significand exponent False)
          (exponentDigits negative significand exponent False)) := by
  funext text
  rw [readExponent_eq]
  by_cases hminus : text.head? = some '-'
  · rw [onFirst_pos hminus]
    simp only [hminus, true_or, if_true]
    rfl
  · rw [onFirst_neg hminus]
    by_cases hplus : text.head? = some '+'
    · rw [onFirst_pos hplus, if_pos (.inr hplus)]
      simp only [hminus]
      rfl
    · rw [onFirst_neg hplus]
      simp only [hminus, hplus, or_self, if_false]

theorem local_readExponent (negative : Bool) (significand : Nat) (exponent : Int) :
    Local (readExponent negative significand exponent) := by
  rw [readExponent_eq_onFirst]
  refine local_onFirst (by decide) (fun c tail _ => localAt_advance_bind c
    (local_exponentDigits negative significand exponent True tail)) ?_
  exact local_onFirst (by decide) (fun c tail _ => localAt_advance_bind c
    (local_exponentDigits negative significand exponent False tail))
    (local_exponentDigits negative significand exponent False)

theorem readScale_eq_onFirst (negative : Bool) (significand : Nat) (exponent : Int) :
    readScale negative significand exponent =
      onFirst (fun head => head = some 'e' ∨ head = some 'E')
        (advance >>= fun _ => readExponent negative significand exponent)
        (realNumber negative significand exponent) := by
  funext text
  unfold readScale
  split
  · rfl
  · rfl
  · next hlower hupper =>
      refine (onFirst_neg ?_).symm
      rintro (h | h) <;> obtain ⟨tail, rfl⟩ := List.head?_eq_some_iff.1 h
      · exact hlower tail rfl
      · exact hupper tail rfl

theorem local_readScale (negative : Bool) (significand : Nat) (exponent : Int) :
    Local (readScale negative significand exponent) := by
  rw [readScale_eq_onFirst]
  exact local_onFirst (by decide)
    (fun c tail _ => localAt_advance_bind c (local_readExponent negative significand exponent tail))
    (local_realNumber negative significand exponent)

theorem readFraction_eq_ok_iff {negative : Bool} {significand : Nat} {exponent : Int}
    {text rest : List Char} {value : Number} :
    readFraction negative significand exponent text = .ok (value, rest) ↔
      text.head?.any isDigit = true ∧ ∃ digits ignored middle,
        readDigits significand text = (digits, ignored, middle) ∧
        readScale negative digits
          (exponent - ↑(text.length - ignored.length - middle.length)) middle =
            .ok (value, rest) := by
  cases text with
  | nil => exact ⟨nofun, fun h => absurd h.1 Bool.false_ne_true⟩
  | cons c tail =>
      by_cases hc : isDigit c = true
      · rw [readFraction, if_pos hc, List.head?_cons, Option.any_some, and_iff_right hc]
        constructor
        · exact fun h => ⟨_, _, _, rfl, h⟩
        · rintro ⟨digits, ignored, middle, hdigits, h⟩
          rw [hdigits]
          exact h
      · rw [readFraction, if_neg hc]
        exact ⟨nofun, fun h => absurd h.1 hc⟩

theorem local_readFraction (negative : Bool) (significand : Nat) (exponent : Int) :
    Local (readFraction negative significand exponent) := by
  intro text value rest h
  obtain ⟨hdigit, digits, ignored, middle, hdigits, hscale⟩ := readFraction_eq_ok_iff.1 h
  obtain ⟨used, rfl, hused⟩ := exists_readDigits_append hdigits
  obtain ⟨usedScale, rfl, htakes⟩ := local_readScale _ _ _ middle value rest hscale
  refine ⟨used ++ usedScale, (List.append_assoc ..).symm, fun other hother => ?_⟩
  have hmiddle := hother.append usedScale
  -- how many places there are is counted by lengths, so what stands behind them cancels out
  have hplaces : ∀ rest : List Char,
      (used ++ rest).length - ignored.length - rest.length = used.length - ignored.length := by
    intro rest
    rw [List.length_append]
    omega
  rw [List.append_assoc]
  refine readFraction_eq_ok_iff.2 ⟨(any_isDigit_head (hmiddle.append used)).trans hdigit,
    digits, ignored, usedScale ++ other, hused _ hmiddle, ?_⟩
  rw [hplaces, ← hplaces (usedScale ++ rest)]
  exact htakes other hother

/-- What follows the digits before the point of a number. -/
def numberTail (negative : Bool) (value : Nat) (ignored : List Char) : Read Number :=
  onFirst (· = some '.')
    (advance >>= fun _ => readFraction negative value ignored.length)
    (onFirst (fun head => head = some 'e' ∨ head = some 'E')
      (advance >>= fun _ => readExponent negative value ignored.length)
      (if ignored.isEmpty then integerNumber negative value
      else realNumber negative value ignored.length))

theorem local_numberTail (negative : Bool) (value : Nat) (ignored : List Char) :
    Local (numberTail negative value ignored) := by
  refine local_onFirst (by decide)
    (fun c tail _ => localAt_advance_bind c (local_readFraction negative value _ tail)) ?_
  refine local_onFirst (by decide)
    (fun c tail _ => localAt_advance_bind c (local_readExponent negative value _ tail)) ?_
  split
  · exact local_integerNumber negative value
  · exact local_realNumber negative value _

theorem digitValue_lt_wordLimit {c : Char} (hc : isDigit c = true) :
    10 * 0 + digitValue c < wordLimit := by
  have hle : c ≤ '9' := by
    unfold isDigit at hc
    exact of_decide_eq_true (Bool.and_eq_true_iff.1 hc).2
  have hnat : c.toNat ≤ 57 := UInt32.le_iff_toNat_le.1 (Char.le_def.1 hle)
  unfold digitValue wordLimit
  omega

theorem readDigits_zero_cons {c : Char} (hc : isDigit c = true) (after : List Char) :
    readDigits 0 (c :: after) = readDigits (digitValue c) after := by
  rw [readDigits, if_pos hc]
  show (if 10 * 0 + digitValue c < wordLimit then readDigits (10 * 0 + digitValue c) after else _) =
    _
  rw [if_pos (digitValue_lt_wordLimit hc), Nat.mul_zero, Nat.zero_add]

theorem map_isDigit_getD (c : Option Char) : (c.map isDigit).getD false = c.any isDigit := by
  cases c <;> rfl

/-- A number without a sign goes on behind the digits before its point. -/
theorem readUnsigned_cons {negative : Bool} {c : Char} {after ignored middle : List Char}
    {digits : Nat} (hc : isDigit c = true) (hzero : ¬ (c = '0' ∧ after.head?.any isDigit = true))
    (hdigits : readDigits (digitValue c) after = (digits, ignored, middle)) :
    readUnsigned negative (c :: after) = numberTail negative digits ignored middle := by
  rw [readUnsigned, if_neg (not_not_intro hc), map_isDigit_getD, if_neg hzero,
    readDigits_zero_cons hc, hdigits]
  dsimp only
  unfold numberTail
  split
  · rfl
  · rfl
  · rfl
  · next hpoint hlower hupper =>
      rw [onFirst_neg, onFirst_neg]
      · split <;> rfl
      · rintro (h | h) <;> obtain ⟨tail, rfl⟩ := List.head?_eq_some_iff.1 h
        · exact hlower tail rfl
        · exact hupper tail rfl
      · intro h
        obtain ⟨tail, rfl⟩ := List.head?_eq_some_iff.1 h
        exact hpoint tail rfl

theorem readUnsigned_eq_ok_iff {negative : Bool} {text rest : List Char} {value : Number} :
    readUnsigned negative text = .ok (value, rest) ↔
      ∃ c after digits ignored middle, text = c :: after ∧ isDigit c = true ∧
        ¬ (c = '0' ∧ after.head?.any isDigit = true) ∧
        readDigits (digitValue c) after = (digits, ignored, middle) ∧
        numberTail negative digits ignored middle = .ok (value, rest) := by
  constructor
  · intro h
    cases text with
    | nil => cases h
    | cons c after =>
        by_cases hc : isDigit c = true
        · by_cases hzero : c = '0' ∧ after.head?.any isDigit = true
          · rw [readUnsigned, if_neg (not_not_intro hc), map_isDigit_getD, if_pos hzero] at h
            cases h
          · exact ⟨c, after, _, _, _, rfl, hc, hzero, rfl, readUnsigned_cons hc hzero rfl ▸ h⟩
        · rw [readUnsigned, if_pos hc] at h
          cases h
  · rintro ⟨c, after, digits, ignored, middle, rfl, hc, hzero, hdigits, h⟩
    rw [readUnsigned_cons hc hzero hdigits, h]

theorem local_readUnsigned (negative : Bool) : Local (readUnsigned negative) := by
  intro text value rest h
  obtain ⟨c, after, digits, ignored, middle, rfl, hc, hzero, hdigits, htail⟩ :=
    readUnsigned_eq_ok_iff.1 h
  obtain ⟨used, rfl, hused⟩ := exists_readDigits_append hdigits
  obtain ⟨usedTail, rfl, htakes⟩ := local_numberTail _ _ _ middle value rest htail
  refine ⟨c :: (used ++ usedTail), by simp, fun other hother => ?_⟩
  have hmiddle := hother.append usedTail
  refine readUnsigned_eq_ok_iff.2 ⟨c, used ++ (usedTail ++ other), digits, ignored,
    usedTail ++ other, by simp, hc, ?_, hused _ hmiddle, htakes other hother⟩
  rw [any_isDigit_head (hmiddle.append used)]
  exact hzero

theorem number_eq_onFirst :
    number = onFirst (· = some '-') (advance >>= fun _ => readUnsigned true)
      (readUnsigned false) := by
  funext text
  unfold number
  split
  · rfl
  · next hminus =>
      refine (onFirst_neg fun h => ?_).symm
      obtain ⟨tail, rfl⟩ := List.head?_eq_some_iff.1 h
      exact hminus tail rfl

theorem local_number : Local number := by
  rw [number_eq_onFirst]
  exact local_onFirst (by decide)
    (fun c tail _ => localAt_advance_bind c (local_readUnsigned true tail))
    (local_readUnsigned false)

end CallRedirect.Json.Read
