import X360Port.Library.Json.Reader

/-!
# Parsing JSON

The reader takes every text of the grammar: a value leads from where a value is
to come to where it is complete (`play_value`), by induction over its derivation.
So the reader answers exactly what the grammar gives (`read_eq_some_iff`), and `parse`
the same for bytes in UTF-8 (`parse_eq_some_iff`).
-/

namespace X360Port.Library.Json

section

variable {t w b raw ts : List Char} {c x : Char} {v : Json} {vs : List Json}
  {ms : List (List Char × Json)} {frames : List Frame} {s s' : State}

/-- The state does not mind white space. -/
def Stays (s : State) : Prop := ∀ c, IsWs c → step s c = some s

theorem stays_value (frames : List Frame) : Stays ⟨.value, frames⟩ := fun _ hc => if_pos hc

theorem stays_name (ms : List (List Char × Json)) (frames : List Frame) :
    Stays ⟨.name ms, frames⟩ := fun _ hc => if_pos hc

theorem stays_colon (ms : List (List Char × Json)) (k : List Char) (frames : List Frame) :
    Stays ⟨.colon ms k, frames⟩ := fun _ hc => if_pos hc

theorem stays_after (v : Json) (frames : List Frame) : Stays ⟨.after v, frames⟩ :=
  fun _ hc => if_pos hc

theorem play_ws (hs : Stays s) (hw : Ws w) : play step s w = some s := by
  induction w with
  | nil => rfl
  | cons c w ih =>
    rw [play, hs c (hw c (by simp)), Option.bind_some]
    exact ih fun d hd => hw d (by simp [hd])

theorem play_structural (hs : Stays s) (hs' : Stays s') (h : step s x = some s')
    (hb : Structural x b) : play step s b = some s' := by
  obtain ⟨before, after, hbefore, hafter, rfl⟩ := hb
  rw [play_append, play_ws hs hbefore, Option.bind_some, play, h, Option.bind_some,
    play_ws hs' hafter]

theorem play_structural_append (hs : Stays s) (hs' : Stays s') (h : step s x = some s')
    (hb : Structural x b) : play step s (b ++ t) = play step s' t := by
  rw [play_append, play_structural hs hs' h hb, Option.bind_some]

/-! ## Strings -/

theorem hexDigit_plain (h : (hexDigitOf c).isSome) : c ≠ '"' ∧ c ≠ '\\' := by
  constructor
  · rintro rfl
    revert h
    decide
  · rintro rfl
    revert h
    decide

/-- Between quotation marks every character is collected. -/
theorem step_text {naming : Option (List (List Char × Json))} (h : c ≠ '"' ∧ c ≠ '\\') :
    step ⟨.text naming raw false, frames⟩ c = some ⟨.text naming (raw ++ [c]) false, frames⟩ := by
  simp only [step, stepText, Bool.false_eq_true, if_false, if_neg h.1, if_neg h.2]

theorem step_escape {naming : Option (List (List Char × Json))} :
    play step ⟨.text naming raw false, frames⟩ ['\\', c] =
      some ⟨.text naming (raw ++ ['\\', c]) false, frames⟩ := by
  simp [play, step, stepText]

theorem hexOf_plain {a b c d : Char} {n : Nat} (h : hexOf a b c d = some n) :
    ∀ x ∈ [a, b, c, d], x ≠ '"' ∧ x ≠ '\\' := by
  simp only [hexOf, Option.bind_eq_bind, Option.bind_eq_some_iff] at h
  obtain ⟨_, ha, _, hb, _, hc, _, hd, -⟩ := h
  intro x hx
  simp only [List.mem_cons, List.not_mem_nil, or_false] at hx
  rcases hx with rfl | rfl | rfl | rfl
  · exact hexDigit_plain (by rw [ha]; rfl)
  · exact hexDigit_plain (by rw [hb]; rfl)
  · exact hexDigit_plain (by rw [hc]; rfl)
  · exact hexDigit_plain (by rw [hd]; rfl)

theorem play_plain {naming : Option (List (List Char × Json))}
    (h : ∀ x ∈ t, x ≠ '"' ∧ x ≠ '\\') :
    play step ⟨.text naming raw false, frames⟩ t =
      some ⟨.text naming (raw ++ t) false, frames⟩ := by
  induction t generalizing raw with
  | nil => rw [play_nil, List.append_nil]
  | cons c t ih =>
    rw [play, step_text (h c (by simp)), Option.bind_some, ih fun d hd => h d (by simp [hd])]
    simp

/-- An escaped code unit. -/
theorem play_unicode {naming : Option (List (List Char × Json))} {a b c d : Char} {n : Nat}
    (h : hexOf a b c d = some n) :
    play step ⟨.text naming raw false, frames⟩ ['\\', 'u', a, b, c, d] =
      some ⟨.text naming (raw ++ ['\\', 'u', a, b, c, d]) false, frames⟩ := by
  have hsplit : ['\\', 'u', a, b, c, d] = ['\\', 'u'] ++ [a, b, c, d] := rfl
  rw [hsplit, play_append, step_escape, Option.bind_some, play_plain (hexOf_plain h),
    List.append_assoc]

theorem play_chars {naming : Option (List (List Char × Json))} {u : List Char} (h : Chars t u) :
    play step ⟨.text naming raw false, frames⟩ t =
      some ⟨.text naming (raw ++ t) false, frames⟩ := by
  -- each rule takes one piece of the text off
  have hpiece : ∀ {raw p rest : List Char},
      play step ⟨.text naming raw false, frames⟩ p =
        some ⟨.text naming (raw ++ p) false, frames⟩ →
      (∀ {raw}, play step ⟨.text naming raw false, frames⟩ rest =
        some ⟨.text naming (raw ++ rest) false, frames⟩) →
      play step ⟨.text naming raw false, frames⟩ (p ++ rest) =
        some ⟨.text naming (raw ++ (p ++ rest)) false, frames⟩ := by
    intro raw p rest hp hrest
    rw [play_append, hp, Option.bind_some, hrest, List.append_assoc]
  induction h generalizing raw with
  | nil => rw [play_nil, List.append_nil]
  | @unescaped c t _ hc _ ih =>
    exact hpiece (p := [c]) (play_plain (by simpa using hc.2)) ih
  | @escaped e _ t _ _ _ ih => exact hpiece (p := ['\\', e]) step_escape ih
  | unicode hhex _ _ _ ih => exact hpiece (play_unicode hhex) ih
  | pair hhex hhex' _ _ _ ih => exact hpiece (play_unicode hhex) (hpiece (play_unicode hhex') ih)

theorem play_quoted {naming : Option (List (List Char × Json))} {q u : List Char}
    (hs : step s '"' = some ⟨.text naming [] false, frames⟩) (h : Quoted q u) :
    play step s q = some (closed naming frames u) := by
  obtain ⟨raw, hraw, rfl⟩ := h
  rw [play, hs, Option.bind_some, play_append, play_chars hraw, Option.bind_some,
    List.nil_append, play]
  simp [step, stepText, unescape_eq_some_iff.2 hraw]

/-! ## Numbers and literal names -/

theorem IsDigit.isScalar (h : IsDigit c) : IsScalar c := by
  refine .inl ?_
  rw [Char.isAlphanum, h, Bool.or_true]

theorem Number.isScalar {m x : Int} (h : Number t m x) : t ≠ [] ∧ Scalar t := by
  cases h with
  | @mk negative int frac fracDigits exp e hint hfrac hexp =>
    obtain ⟨hdigits, hne, -⟩ := hint
    constructor
    · simp [hne]
    intro c hc
    simp only [List.mem_append] at hc
    rcases hc with hc | hc | hc | hc
    · cases negative with
      | true => exact .inr (.inl (by simpa using hc))
      | false => exact absurd hc (by simp)
    · exact (hdigits c hc).isScalar
    · cases hfrac with
      | none => exact absurd hc (by simp)
      | some hds =>
        rcases List.mem_cons.1 hc with rfl | hc
        · decide
        · exact (hds c hc).isScalar
    · cases hexp with
      | none => exact absurd hc (by simp)
      | some he hsign hds =>
        rcases List.mem_cons.1 hc with rfl | hc
        · rcases he with rfl | rfl
          · decide
          · decide
        rcases List.mem_append.1 hc with hc | hc
        · cases hsign with
          | none => exact absurd hc (by simp)
          | plus => exact .inr (.inr (.inl (by simpa using hc)))
          | minus => exact .inr (.inl (by simpa using hc))
        · exact (hds c hc).isScalar

theorem readScalar_number {m x : Int} (h : Number t m x) : readScalar t = some (.number m x) := by
  have hread := readNumber_eq_some_iff.2 h
  unfold readScalar
  rw [if_neg, if_neg, if_neg, hread, Option.map_some]
  · rintro rfl
    cases hread
  · rintro rfl
    cases hread
  · rintro rfl
    cases hread

theorem IsWs.not_isScalar (h : IsWs c) : ¬ IsScalar c := by
  rcases h with rfl | rfl | rfl | rfl
  all_goals decide

theorem step_scalar (hc : IsScalar c) :
    step ⟨.value, frames⟩ c = some ⟨.scalar [c], frames⟩ := by
  have hws : ¬ IsWs c := fun h => h.not_isScalar hc
  have hne : ∀ d ∈ ['"', '[', '{'], c ≠ d := by
    rintro d hd rfl
    simp only [List.mem_cons, List.not_mem_nil, or_false] at hd
    rcases hd with rfl | rfl | rfl
    all_goals revert hc; decide
  simp only [step, stepValue, if_neg hws, if_neg (hne '"' (by simp)), if_neg (hne '[' (by simp)),
    if_neg (hne '{' (by simp)), if_pos hc]

theorem play_collect (h : Scalar t) :
    play step ⟨.scalar raw, frames⟩ t = some ⟨.scalar (raw ++ t), frames⟩ := by
  induction t generalizing raw with
  | nil => rw [play_nil, List.append_nil]
  | cons c t ih =>
    have hc : step ⟨.scalar raw, frames⟩ c = some ⟨.scalar (raw ++ [c]), frames⟩ :=
      if_pos (h c (by simp))
    rw [play, hc, Option.bind_some, ih fun d hd => h d (by simp [hd])]
    simp

/-- The state is at the end of the value, though the reader may not know it yet. -/
structure Completes (s : State) (v : Json) (frames : List Frame) : Prop where
  takes : ∀ c, ¬ IsScalar c → step s c = stepAfter v frames c
  ends : finish s = finish ⟨.after v, frames⟩

theorem completes_after (v : Json) (frames : List Frame) : Completes ⟨.after v, frames⟩ v frames :=
  ⟨fun _ _ => rfl, rfl⟩

theorem exists_scalar (hne : t ≠ []) (h : Scalar t) (hv : readScalar t = some v)
    (frames : List Frame) :
    ∃ s, play step ⟨.value, frames⟩ t = some s ∧ Completes s v frames := by
  refine ⟨⟨.scalar t, frames⟩, ?_, fun c hc => ?_, ?_⟩
  · cases t with
    | nil => exact absurd rfl hne
    | cons c t =>
      rw [play, step_scalar (h c (by simp)), Option.bind_some,
        play_collect fun d hd => h d (by simp [hd])]
      rfl
  · rw [step, if_neg hc, hv, Option.bind_some]
  · cases frames with
    | nil => exact hv
    | cons => rfl

theorem Completes.play_eq (h : Completes s v frames) (hb : Structural x b) (hx : ¬ IsScalar x) :
    play step s b = play step ⟨.after v, frames⟩ b := by
  obtain ⟨before, after, hbefore, -, rfl⟩ := hb
  cases before with
  | nil =>
    rw [List.nil_append, play, play, h.takes x hx]
    rfl
  | cons c before =>
    have hc : ¬ IsScalar c := (hbefore c (by simp)).not_isScalar
    rw [List.cons_append, play, play, h.takes c hc]
    rfl

/-! ## Values -/

/-- A structural character behind a value. -/
theorem Completes.play (h : Completes s v frames) (hb : Structural x b) (hx : ¬ IsScalar x)
    (hs' : Stays s') (hstep : stepAfter v frames x = some s') : play step s b = some s' := by
  rw [h.play_eq hb hx]
  exact play_structural (stays_after v frames) hs' hstep hb

/-- A name with its colon. -/
theorem play_named {q d k : List Char} (hk : Quoted q k) (hd : Structural ':' d) :
    play step ⟨.name ms, frames⟩ (q ++ (d ++ t)) =
      play step ⟨.value, .member ms k :: frames⟩ t := by
  have hname : play step ⟨.name ms, frames⟩ q = some (closed (some ms) frames k) :=
    play_quoted rfl hk
  rw [play_append, hname, Option.bind_some, closed,
    play_structural_append (stays_colon _ _ _) (stays_value _) rfl hd]

end

mutual

theorem play_value {t : List Char} {v : Json} (h : Value t v) (frames : List Frame) :
    ∃ s, play step ⟨.value, frames⟩ t = some s ∧ Completes s v frames := by
  cases h with
  | null => exact exists_scalar (by decide) (by decide) rfl frames
  | true => exact exists_scalar (by decide) (by decide) rfl frames
  | false => exact exists_scalar (by decide) (by decide) rfl frames
  | number hn =>
    obtain ⟨hne, hscalar⟩ := hn.isScalar
    exact exists_scalar hne hscalar (readScalar_number hn) frames
  | string hq => exact ⟨_, play_quoted rfl hq, completes_after _ _⟩
  | emptyArray hb he =>
    refine ⟨_, ?_, completes_after _ _⟩
    rw [play_structural_append (stays_value _) (stays_value _) rfl hb]
    exact play_structural (stays_value _) (stays_after _ _) rfl he
  | array hb hts he =>
    refine ⟨_, ?_, completes_after _ _⟩
    rw [play_structural_append (stays_value _) (stays_value _) rfl hb]
    exact play_elements hts [] frames he
  | emptyObject hb he =>
    refine ⟨_, ?_, completes_after _ _⟩
    rw [play_structural_append (stays_value _) (stays_name _ _) rfl hb]
    exact play_structural (stays_name _ _) (stays_after _ _) rfl he
  | object hb hts he =>
    refine ⟨_, ?_, completes_after _ _⟩
    rw [play_structural_append (stays_value _) (stays_name _ _) rfl hb]
    exact play_members hts [] frames he

theorem play_elements {ts b : List Char} {vs : List Json} (h : Elements ts vs) (done : List Json)
    (frames : List Frame) (he : Structural ']' b) :
    play step ⟨.value, .array done :: frames⟩ (ts ++ b) =
      some ⟨.after (.array (done ++ vs)), frames⟩ := by
  cases h with
  | one hv =>
    obtain ⟨s, hs, hend⟩ := play_value hv (.array done :: frames)
    rw [play_append, hs, Option.bind_some]
    exact hend.play he (by decide) (stays_after _ _) rfl
  | @more _ _ _ v _ hv hc hts =>
    obtain ⟨s, hs, hend⟩ := play_value hv (.array done :: frames)
    have hnext := hend.play hc (by decide) (stays_value (.array (done ++ [v]) :: frames)) rfl
    rw [List.append_assoc, play_append, hs, Option.bind_some, List.append_assoc, play_append,
      hnext, Option.bind_some, play_elements hts (done ++ [v]) frames he]
    simp

theorem play_members {ts b : List Char} {ms : List (List Char × Json)} (h : Members ts ms)
    (done : List (List Char × Json)) (frames : List Frame) (he : Structural '}' b) :
    play step ⟨.name done, frames⟩ (ts ++ b) =
      some ⟨.after (.object (done ++ ms)), frames⟩ := by
  cases h with
  | @one _ _ _ k _ hk hd hv =>
    obtain ⟨s, hs, hend⟩ := play_value hv (.member done k :: frames)
    rw [List.append_assoc, List.append_assoc, play_named hk hd, play_append, hs, Option.bind_some]
    exact hend.play he (by decide) (stays_after _ _) rfl
  | @more _ _ _ _ _ k v _ hk hd hv hc hts =>
    obtain ⟨s, hs, hend⟩ := play_value hv (.member done k :: frames)
    have hnext := hend.play hc (by decide) (stays_name (done ++ [(k, v)]) frames) rfl
    rw [List.append_assoc, List.append_assoc, play_named hk hd, List.append_assoc, play_append, hs,
      Option.bind_some, List.append_assoc, play_append, hnext, Option.bind_some,
      play_members hts (done ++ [(k, v)]) frames he]
    simp

end

theorem read_of_text {t : List Char} {v : Json} (h : Text t v) : read t = some v := by
  obtain ⟨before, t, after, hbefore, hv, hafter, rfl⟩ := h
  obtain ⟨s, hs, hend⟩ := play_value hv []
  rw [read, play_append, play_ws (stays_value []) hbefore, Option.bind_some, play_append, hs,
    Option.bind_some]
  cases after with
  | nil => exact hend.ends
  | cons c after =>
    have hws : IsWs c := hafter c (by simp)
    have hplay : play step s (c :: after) = some ⟨.after v, []⟩ := by
      have hfirst : step s c = some ⟨.after v, []⟩ :=
        (hend.takes c hws.not_isScalar).trans (stays_after v [] c hws)
      rw [play, hfirst, Option.bind_some]
      exact play_ws (stays_after v []) fun d hd => hafter d (by simp [hd])
    rw [hplay]
    rfl

/-! ## The reader and the grammar -/

/-- The reader answers exactly what the grammar gives. -/
theorem read_eq_some_iff {text : List Char} {v : Json} : read text = some v ↔ Text text v :=
  ⟨text_of_read, read_of_text⟩

/-- The reader of bytes. -/
def parse (bytes : List UInt8) : Option Json :=
  if IsUtf8 bytes then read (textOf bytes) else none

theorem parse_eq_some_iff {bytes : List UInt8} {v : Json} :
    parse bytes = some v ↔ Encodes bytes v := by
  constructor
  · intro h
    rw [parse, Option.ite_none_right_eq_some] at h
    exact ⟨textOf bytes, h.1.utf8_textOf, read_eq_some_iff.1 h.2⟩
  · rintro ⟨text, rfl, htext⟩
    rw [parse, if_pos (isUtf8_utf8 text), textOf_utf8]
    exact read_eq_some_iff.2 htext

end X360Port.Library.Json
