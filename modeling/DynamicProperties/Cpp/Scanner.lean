import Mathlib.Data.List.TakeWhile
import DynamicProperties.Library.Fallible
import DynamicProperties.Library.Json
import DynamicProperties.Cpp.Utf8
import DynamicProperties.Cpp.Codec

/-!
# The leaves of the parser against the grammar

What `skipSpace`, `take`, `consume`, the loops of `parseNumber` and those of
`parseString` read, each compared with its production.  `Reads` says which text a
cursor passed over; soundness gives that text for every successful call, and
completeness gives the call for every text of the production that is followed by
something it cannot continue with.
-/

namespace DynamicProperties.Cpp

open DynamicProperties.Library
open DynamicProperties.Library.Fallible

/-- The JSON of RFC 8259 over octets. -/
def rfc8259 : Json.Dialect UInt8 := ⟨id, Json.NumberLiteral⟩

@[simp] theorem token_rfc8259 (octets : ByteString) : rfc8259.token octets = octets :=
  List.map_id octets

/-! ## Cursors -/

/-- From `cursor` to `cursor'` the parser passed over `octets`. -/
def Reads (cursor : Cursor) (octets : ByteString) (cursor' : Cursor) : Prop :=
  cursor.rest = octets ++ cursor'.rest ∧ cursor'.pos = cursor.pos + octets.length

section Reading

variable {cursor cursor' cursor'' : Cursor} {octets octets' : ByteString}

theorem Reads.nil (cursor : Cursor) : Reads cursor [] cursor := ⟨rfl, rfl⟩

theorem Reads.append (h : Reads cursor octets cursor') (h' : Reads cursor' octets' cursor'') :
    Reads cursor (octets ++ octets') cursor'' := by
  constructor
  · rw [h.1, h'.1, List.append_assoc]
  · rw [h'.2, h.2, List.length_append, Nat.add_assoc]

theorem Reads.split (h : Reads cursor (octets ++ octets') cursor'') :
    ∃ cursor', Reads cursor octets cursor' ∧ Reads cursor' octets' cursor'' := by
  refine ⟨⟨octets' ++ cursor''.rest, cursor.pos + octets.length⟩, ⟨?_, rfl⟩, rfl, ?_⟩
  · rw [h.1, List.append_assoc]
  · rw [h.2, List.length_append, Nat.add_assoc]

theorem Reads.eq_advance (h : Reads cursor octets cursor') :
    cursor' = cursor.advance octets.length := by
  obtain ⟨rest, pos⟩ := cursor'
  obtain ⟨hrest, hpos⟩ := h
  simp only at hrest hpos
  subst hpos
  rw [Cursor.advance, hrest, List.drop_left]

theorem Reads.unique (h : Reads cursor octets cursor') (h' : Reads cursor octets cursor'') :
    cursor' = cursor'' := by
  rw [h.eq_advance, h'.eq_advance]

theorem Reads.of_nil (h : Reads cursor [] cursor') : cursor' = cursor := h.unique (.nil cursor)

theorem Reads.length (h : Reads cursor octets cursor') :
    cursor.rest.length = octets.length + cursor'.rest.length := by
  rw [h.1, List.length_append]

/-- Moving past a prefix of the text reads it. -/
theorem reads_advance {rest : ByteString} (h : cursor.rest = octets ++ rest) :
    Reads cursor octets (cursor.advance octets.length) := by
  refine ⟨?_, rfl⟩
  show cursor.rest = octets ++ cursor.rest.drop octets.length
  rw [h, List.drop_left]

theorem reads_head {c : UInt8} {rest : ByteString} (h : cursor.rest = c :: rest) :
    Reads cursor [c] (cursor.advance 1) :=
  show Reads cursor [c] (cursor.advance [c].length) from reads_advance h

theorem Reads.cons {c : UInt8} {rest : ByteString} (h : cursor.rest = c :: rest)
    (h' : Reads (cursor.advance 1) octets cursor') : Reads cursor (c :: octets) cursor' :=
  (reads_head h).append h'

/-- The text read starts where the cursor stands. -/
theorem Reads.uncons {c : UInt8} (h : Reads cursor (c :: octets) cursor') :
    cursor.rest = c :: (octets ++ cursor'.rest) ∧ Reads (cursor.advance 1) octets cursor' := by
  have hsplit : Reads cursor ([c] ++ octets) cursor' := h
  obtain ⟨middle, hhead, htail⟩ := hsplit.split
  have hrest : cursor.rest = c :: (octets ++ cursor'.rest) := h.1
  refine ⟨hrest, ?_⟩
  rw [← hhead.unique (reads_head hrest)]
  exact htail

theorem take_eq_ok {c : UInt8} : take cursor = .ok (c, cursor') ↔ Reads cursor [c] cursor' := by
  unfold take
  split
  next hnil =>
    refine iff_of_false (fun h => by cases h) fun h => ?_
    have hrest := h.1
    rw [hnil] at hrest
    cases hrest
  next head rest hcons =>
    constructor
    · intro h
      cases h
      exact reads_head hcons
    · intro h
      obtain ⟨hrest, htail⟩ := h.uncons
      rw [hcons] at hrest
      cases hrest
      rw [htail.of_nil]

theorem consume_eq_some {value : ByteString} :
    consume value cursor = some cursor' ↔ Reads cursor value cursor' := by
  unfold consume
  by_cases h : value.isPrefixOf cursor.rest = true
  · rw [if_pos h]
    obtain ⟨rest, hrest⟩ := List.isPrefixOf_iff_prefix.mp h
    have hreads := reads_advance hrest.symm
    constructor
    · intro heq
      rw [← Option.some.inj heq]
      exact hreads
    · intro h'
      rw [h'.unique hreads]
  · rw [if_neg h]
    refine iff_of_false (fun h' => by cases h') fun h' => h ?_
    rw [List.isPrefixOf_iff_prefix, h'.1]
    exact List.prefix_append _ _

theorem consume_eq_none {value : ByteString} (h : ∀ rest, cursor.rest ≠ value ++ rest) :
    consume value cursor = none := by
  cases hconsume : consume value cursor with
  | none => rfl
  | some cursor' => exact absurd (consume_eq_some.mp hconsume).1 (h _)

/-- What a loop over a class of octets skips. -/
theorem takeWhile_append {p : UInt8 → Bool} {rest : ByteString} (hoctets : ∀ c ∈ octets, p c = true)
    (hrest : ∀ c ∈ rest.head?, p c = false) : (octets ++ rest).takeWhile p = octets := by
  rw [List.takeWhile_append_of_pos hoctets]
  cases rest with
  | nil => simp
  | cons c rest => simp [hrest c rfl]

theorem reads_takeWhile (p : UInt8 → Bool) (cursor : Cursor) :
    Reads cursor (cursor.rest.takeWhile p)
        (cursor.advance (cursor.rest.takeWhile p).length) ∧
      ∀ c ∈ (cursor.advance (cursor.rest.takeWhile p).length).rest.head?, p c = false := by
  have hsplit : cursor.rest = cursor.rest.takeWhile p ++ cursor.rest.dropWhile p :=
    List.takeWhile_append_dropWhile.symm
  have hreads := reads_advance hsplit
  refine ⟨hreads, fun c hc => ?_⟩
  have hdrop : (cursor.advance (cursor.rest.takeWhile p).length).rest =
      cursor.rest.dropWhile p := by
    exact (List.append_cancel_left (hsplit.symm.trans hreads.1)).symm
  rw [hdrop] at hc
  cases hp : p c with
  | false => rfl
  | true =>
      have hnot := List.head?_dropWhile_not p cursor.rest
      rw [Option.mem_def.mp hc] at hnot
      simp [hp] at hnot

end Reading

/-! ## White space -/

theorem isSpace_iff {c : UInt8} :
    isSpace c = true ↔ c = 0x20 ∨ c = 0x09 ∨ c = 0x0A ∨ c = 0x0D := by
  simp only [isSpace, Bool.or_eq_true, decide_eq_true_eq]
  tauto

/-- No white space comes next. -/
def NoSpace (cursor : Cursor) : Prop := ∀ c ∈ cursor.rest.head?, isSpace c = false

theorem reads_skipSpace (cursor : Cursor) :
    ∃ space, Json.Space space ∧ Reads cursor space (skipSpace cursor) ∧
      NoSpace (skipSpace cursor) := by
  obtain ⟨hreads, hnext⟩ := reads_takeWhile isSpace cursor
  exact ⟨_, fun c hc => isSpace_iff.mp (List.mem_takeWhile_imp hc), hreads, hnext⟩

theorem skipSpace_eq {cursor cursor' : Cursor} {space : ByteString} (hspace : Json.Space space)
    (hreads : Reads cursor space cursor') (hnext : NoSpace cursor') :
    skipSpace cursor = cursor' := by
  rw [skipSpace, hreads.eq_advance, hreads.1,
    takeWhile_append (fun c hc => isSpace_iff.mpr (hspace c hc)) hnext]

theorem skipSpace_of_noSpace {cursor : Cursor} (h : NoSpace cursor) : skipSpace cursor = cursor :=
  skipSpace_eq (fun _ hc => absurd hc List.not_mem_nil) (.nil cursor) h

/-! ## Numbers -/

theorem isDigit_iff {c : UInt8} : isDigit c = true ↔ Json.IsDigit c := by
  simp only [isDigit, Json.IsDigit, Bool.and_eq_true, decide_eq_true_eq]

/-- No digit comes next. -/
def NoDigit (cursor : Cursor) : Prop := ∀ c ∈ cursor.rest.head?, ¬ Json.IsDigit c

/-- Nothing that could continue a number comes next. -/
def NumberEnds (cursor : Cursor) : Prop :=
  ∀ c ∈ cursor.rest.head?, ¬ Json.IsDigit c ∧ c ≠ 0x2E ∧ c ≠ 0x65 ∧ c ≠ 0x45

section Numbers

variable {cursor cursor' cursor'' : Cursor} {octets : ByteString} {message : String}

theorem requireDigits_sound (h : requireDigits message cursor = .ok cursor') :
    ∃ digits, Json.Digits digits ∧ Reads cursor digits cursor' := by
  unfold requireDigits at h
  split at h
  next c rest hrest =>
    split at h
    next hdigit =>
      cases h
      obtain ⟨hreads, -⟩ := reads_takeWhile isDigit cursor
      refine ⟨_, ⟨?_, fun c hc => isDigit_iff.mp (List.mem_takeWhile_imp hc)⟩, hreads⟩
      rw [hrest, List.takeWhile_cons, if_pos hdigit]
      exact List.cons_ne_nil _ _
    next => cases h
  next => cases h

theorem requireDigits_complete (hdigits : Json.Digits octets) (hreads : Reads cursor octets cursor')
    (hnext : NoDigit cursor') : requireDigits message cursor = .ok cursor' := by
  obtain ⟨hne, hall⟩ := hdigits
  obtain ⟨c, rest, rfl⟩ := List.exists_cons_of_ne_nil hne
  unfold requireDigits
  rw [hreads.uncons.1]
  simp only
  rw [if_pos (isDigit_iff.mpr (hall c (by simp))), skipDigits, hreads.eq_advance, hreads.1,
    takeWhile_append (fun c hc => isDigit_iff.mpr (hall c hc)) fun c hc => ?_]
  exact Bool.eq_false_iff.mpr fun hdigit => hnext c hc (isDigit_iff.mp hdigit)

theorem skipInteger_sound (h : skipInteger cursor = .ok cursor') :
    ∃ integer, Json.Integer integer ∧ Reads cursor integer cursor' := by
  unfold skipInteger at h
  split at h
  next => cases h
  next c rest hrest =>
    split at h
    next hzero =>
      cases h
      subst hzero
      exact ⟨[0x30], .inl rfl, reads_head hrest⟩
    next hzero =>
      obtain ⟨digits, hdigits, hreads⟩ := requireDigits_sound h
      refine ⟨digits, .inr ⟨hdigits, fun hhead => hzero ?_⟩, hreads⟩
      obtain ⟨tail, rfl⟩ := List.head?_eq_some_iff.mp hhead
      have hcons := hreads.uncons.1
      rw [hrest] at hcons
      exact (List.cons.inj hcons).1

theorem skipInteger_complete (hinteger : Json.Integer octets) (hreads : Reads cursor octets cursor')
    (hnext : NoDigit cursor') : skipInteger cursor = .ok cursor' := by
  unfold skipInteger
  rcases hinteger with rfl | ⟨hdigits, hhead⟩
  · rw [hreads.1]
    show Except.ok (cursor.advance 1) = _
    rw [hreads.eq_advance]
    rfl
  · obtain ⟨c, rest, rfl⟩ := List.exists_cons_of_ne_nil hdigits.1
    rw [hreads.uncons.1]
    simp only
    rw [if_neg fun hzero => hhead (by rw [hzero]; rfl)]
    exact requireDigits_complete hdigits hreads hnext

theorem skipFraction_sound (h : skipFraction cursor = .ok cursor') :
    ∃ fraction, Json.Fraction fraction ∧ Reads cursor fraction cursor' := by
  unfold skipFraction at h
  split at h
  next => exact ⟨[], .inl rfl, by cases h; exact .nil cursor⟩
  next middle hpoint =>
    obtain ⟨digits, hdigits, hreads⟩ := requireDigits_sound h
    exact ⟨_, .inr ⟨digits, rfl, hdigits⟩, (consume_eq_some.mp hpoint).append hreads⟩

theorem skipFraction_complete (hfraction : Json.Fraction octets)
    (hreads : Reads cursor octets cursor') (hdigit : octets ≠ [] → NoDigit cursor')
    (hpoint : octets = [] → ∀ c ∈ cursor'.rest.head?, c ≠ 0x2E) :
    skipFraction cursor = .ok cursor' := by
  unfold skipFraction
  rcases hfraction with rfl | ⟨digits, rfl, hdigits⟩
  · obtain rfl := hreads.of_nil
    rw [consume_eq_none fun rest hrest => hpoint rfl 0x2E (by rw [hrest]; rfl) rfl]
  · have hsplit : Reads cursor ([0x2E] ++ digits) cursor' := hreads
    obtain ⟨middle, hhead, htail⟩ := hsplit.split
    rw [show consume (text ".") cursor = some middle from consume_eq_some.mpr hhead]
    exact requireDigits_complete hdigits htail (hdigit (List.cons_ne_nil _ _))

/-- The sign of an exponent, if there is one. -/
theorem reads_sign (cursor : Cursor) :
    ∃ sign, (sign = [] ∨ sign = [0x2B] ∨ sign = [0x2D]) ∧
      Reads cursor sign
        (((consume (text "+") cursor).orElse fun _ => consume (text "-") cursor).getD cursor) := by
  cases hplus : consume (text "+") cursor with
  | some cursor' => exact ⟨_, .inr (.inl rfl), consume_eq_some.mp hplus⟩
  | none =>
      cases hminus : consume (text "-") cursor with
      | some cursor' => exact ⟨_, .inr (.inr rfl), consume_eq_some.mp hminus⟩
      | none => exact ⟨[], .inl rfl, .nil cursor⟩

theorem skipSign_eq {sign digits : ByteString} {cursor' : Cursor}
    (hsign : sign = [] ∨ sign = [0x2B] ∨ sign = [0x2D]) (hdigits : Json.Digits digits)
    (hsignReads : Reads cursor sign cursor') (hreads : Reads cursor' digits cursor'') :
    ((consume (text "+") cursor).orElse fun _ => consume (text "-") cursor).getD cursor =
      cursor' := by
  obtain ⟨c, rest, rfl⟩ := List.exists_cons_of_ne_nil hdigits.1
  have hdigit : Json.IsDigit c := hdigits.2 c (by simp)
  have hother : ∀ octet : UInt8, ¬ Json.IsDigit octet → ∀ rest, cursor'.rest ≠ octet :: rest := by
    intro octet hoctet tail htail
    rw [hreads.uncons.1] at htail
    exact hoctet ((List.cons.inj htail).1 ▸ hdigit)
  rcases hsign with rfl | rfl | rfl
  · obtain rfl := hsignReads.of_nil
    have hplus : consume (text "+") cursor' = none :=
      consume_eq_none fun rest => hother 0x2B (by decide) rest
    have hminus : consume (text "-") cursor' = none :=
      consume_eq_none fun rest => hother 0x2D (by decide) rest
    rw [hplus, hminus]
    rfl
  · rw [show consume (text "+") cursor = some cursor' from consume_eq_some.mpr hsignReads]
    rfl
  · have hplus : consume (text "+") cursor = none := consume_eq_none fun rest hrest => by
      rw [hsignReads.1] at hrest
      exact absurd (List.cons.inj hrest).1 (by decide)
    rw [hplus, show consume (text "-") cursor = some cursor' from consume_eq_some.mpr hsignReads]
    rfl

theorem skipExponent_sound (h : skipExponent cursor = .ok cursor') :
    ∃ exponent, Json.Exponent exponent ∧ Reads cursor exponent cursor' := by
  unfold skipExponent at h
  split at h
  next c rest hrest =>
    split at h
    next he =>
      obtain ⟨sign, hsign, hsignReads⟩ := reads_sign (cursor.advance 1)
      obtain ⟨digits, hdigits, hreads⟩ := requireDigits_sound h
      exact ⟨_, .inr ⟨c, sign, digits, rfl, he, hsign, hdigits⟩,
        .cons hrest (hsignReads.append hreads)⟩
    next =>
      cases h
      exact ⟨[], .inl rfl, .nil cursor⟩
  next =>
    cases h
    exact ⟨[], .inl rfl, .nil cursor⟩

theorem skipExponent_complete (hexponent : Json.Exponent octets)
    (hreads : Reads cursor octets cursor') (hdigit : octets ≠ [] → NoDigit cursor')
    (hletter : octets = [] → ∀ c ∈ cursor'.rest.head?, c ≠ 0x65 ∧ c ≠ 0x45) :
    skipExponent cursor = .ok cursor' := by
  unfold skipExponent
  rcases hexponent with rfl | ⟨e, sign, digits, rfl, he, hsign, hdigits⟩
  · obtain rfl := hreads.of_nil
    split
    next c rest hrest =>
      have hne := hletter rfl c (by rw [hrest]; rfl)
      rw [if_neg (not_or.mpr hne)]
    next => rfl
  · obtain ⟨hrest, htail⟩ := hreads.uncons
    obtain ⟨middle, hsignReads, hdigitReads⟩ := htail.split
    rw [hrest]
    simp only
    rw [if_pos he, skipSign_eq hsign hdigits hsignReads hdigitReads]
    exact requireDigits_complete hdigits hdigitReads (hdigit (List.cons_ne_nil _ _))

/-- The literal is finite under `strtod`, which reads all of it. -/
def FiniteLiteral (format : NumberFormat) (octets : ByteString) : Prop :=
  (format.strtod octets).2 = [] ∧ (format.strtod octets).1.isFinite = true

/-- The minus sign of a number, if there is one. -/
theorem reads_minus (cursor : Cursor) :
    ∃ minus, Json.Minus minus ∧
      Reads cursor minus ((consume (text "-") cursor).getD cursor) := by
  cases hminus : consume (text "-") cursor with
  | some cursor' => exact ⟨_, .inr rfl, consume_eq_some.mp hminus⟩
  | none => exact ⟨[], .inl rfl, .nil cursor⟩

theorem skipMinus_eq {minus integer : ByteString} (hminus : Json.Minus minus)
    (hinteger : Json.Integer integer) (hminusReads : Reads cursor minus cursor')
    (hreads : Reads cursor' integer cursor'') :
    (consume (text "-") cursor).getD cursor = cursor' := by
  rcases hminus with rfl | rfl
  · obtain rfl := hminusReads.of_nil
    rw [consume_eq_none fun rest hrest => ?_]
    · rfl
    · rw [hreads.1] at hrest
      rcases hinteger with rfl | ⟨hdigits, -⟩
      · exact absurd (List.cons.inj hrest).1 (by decide)
      · obtain ⟨c, tail, rfl⟩ := List.exists_cons_of_ne_nil hdigits.1
        have hdigit : Json.IsDigit c := hdigits.2 c (by simp)
        rw [(List.cons.inj hrest).1] at hdigit
        exact absurd hdigit (by decide)
  · rw [show consume (text "-") cursor = some cursor' from consume_eq_some.mpr hminusReads]
    rfl

/-- The slice of the text from where a number starts to where it ends. -/
theorem Reads.slice (h : Reads cursor octets cursor') :
    cursor.rest.take (cursor'.pos - cursor.pos) = octets := by
  rw [h.2, Nat.add_sub_cancel_left, h.1, List.take_left]

theorem parseNumber_sound {format : NumberFormat} {value : Double}
    (h : parseNumber format cursor = .ok (value, cursor')) :
    ∃ octets, Json.NumberLiteral octets ∧ FiniteLiteral format octets ∧
      (format.strtod octets).1 = value ∧ Reads cursor octets cursor' := by
  obtain ⟨minus, hminus, hminusReads⟩ := reads_minus cursor
  obtain ⟨afterInteger, hskip, h⟩ := bind_eq_ok.mp h
  obtain ⟨integer, hinteger, hintegerReads⟩ := skipInteger_sound hskip
  obtain ⟨afterFraction, hskip, h⟩ := bind_eq_ok.mp h
  obtain ⟨fraction, hfraction, hfractionReads⟩ := skipFraction_sound hskip
  obtain ⟨afterExponent, hskip, h⟩ := bind_eq_ok.mp h
  obtain ⟨exponent, hexponent, hexponentReads⟩ := skipExponent_sound hskip
  have hreads := hminusReads.append (hintegerReads.append (hfractionReads.append hexponentReads))
  rw [hreads.slice] at h
  simp only at h
  split at h
  next => cases h
  next hfinite =>
    simp only [Bool.or_eq_true, Bool.not_eq_true', not_or, Bool.not_eq_false,
      List.isEmpty_iff] at hfinite
    cases h
    exact ⟨_, ⟨minus, integer, fraction, exponent, rfl, hminus, hinteger, hfraction, hexponent⟩,
      hfinite, rfl, hreads⟩

theorem parseNumber_complete {format : NumberFormat} (hnumber : Json.NumberLiteral octets)
    (hfinite : FiniteLiteral format octets) (hreads : Reads cursor octets cursor')
    (hends : NumberEnds cursor') :
    parseNumber format cursor = .ok ((format.strtod octets).1, cursor') := by
  obtain ⟨minus, integer, fraction, exponent, rfl, hminus, hinteger, hfraction, hexponent⟩ :=
    hnumber
  have hslice := hreads.slice
  obtain ⟨afterMinus, hminusReads, hreads⟩ := hreads.split
  obtain ⟨afterInteger, hintegerReads, hreads⟩ := hreads.split
  obtain ⟨afterFraction, hfractionReads, hexponentReads⟩ := hreads.split
  have hdigitEnd : NoDigit cursor' := fun c hc => (hends c hc).1
  -- each part is followed by the next one that is there, or by the end of the number
  have hexponentHead : ∀ c ∈ afterFraction.rest.head?, ¬ Json.IsDigit c ∧ c ≠ 0x2E := by
    intro c hc
    rcases hexponent with rfl | ⟨e, sign, digits, rfl, he, -⟩
    · rw [hexponentReads.1] at hc
      exact ⟨(hends c hc).1, (hends c hc).2.1⟩
    · rw [hexponentReads.uncons.1] at hc
      cases hc
      rcases he with rfl | rfl <;> decide
  have hfractionHead : NoDigit afterInteger := by
    intro c hc
    rcases hfraction with rfl | ⟨digits, rfl, -⟩
    · rw [hfractionReads.1] at hc
      exact (hexponentHead c hc).1
    · rw [hfractionReads.uncons.1] at hc
      cases hc
      decide
  have hfractionStep := skipFraction_complete hfraction hfractionReads
    (fun _ c hc => (hexponentHead c hc).1) (fun _ c hc => (hexponentHead c hc).2)
  have hexponentStep := skipExponent_complete hexponent hexponentReads (fun _ => hdigitEnd)
    (fun _ c hc => (hends c hc).2.2)
  unfold parseNumber
  simp only [skipMinus_eq hminus hinteger hminusReads hintegerReads,
    skipInteger_complete hinteger hintegerReads hfractionHead, hfractionStep, hexponentStep,
    bind, Except.bind, hslice]
  rw [if_neg]
  rw [hfinite.1, hfinite.2]
  exact Bool.false_ne_true

end Numbers

end DynamicProperties.Cpp
