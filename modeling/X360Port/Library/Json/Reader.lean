import X360Port.Library.Json.Tokens
import X360Port.Library.Machine

/-!
# A reader of JSON texts

A machine that takes a text character by character. Its state says what is to
come next and holds the arrays and objects around it, innermost first, with what
was read of them. The text of a string, a number or a literal name is collected
and read as a whole where it ends.

`Reached` says which texts lead to a state: those that the grammar lets stand
there. Every step keeps it (`reached_step`), so what the reader answers the grammar
gives to the text (`text_of_read`).
-/

namespace X360Port.Library.Json

/-! ## The machine -/

/-- An array or a member of an object, around the value that is being read. -/
inductive Frame where
  | array (elements : List Json)
  | member (members : List (List Char × Json)) (name : List Char)

inductive Phase where
  /-- A value is to come, or the end of an array without elements. -/
  | value
  /-- A name is to come, or the end of an object without members. -/
  | name (members : List (List Char × Json))
  /-- Between quotation marks, of a value or of the next name behind the members. -/
  | text (naming : Option (List (List Char × Json))) (raw : List Char) (escaped : Bool)
  | colon (members : List (List Char × Json)) (name : List Char)
  | scalar (raw : List Char)
  | after (v : Json)

structure State where
  phase : Phase
  frames : List Frame

/-- The characters of numbers and literal names. -/
def IsScalar (c : Char) : Prop := c.isAlphanum ∨ c = '-' ∨ c = '+' ∨ c = '.'

instance (c : Char) : Decidable (IsScalar c) := inferInstanceAs (Decidable (_ ∨ _))

def Scalar (t : List Char) : Prop := ∀ c ∈ t, IsScalar c

instance (t : List Char) : Decidable (Scalar t) := List.decidableBAll IsScalar t

def readScalar (raw : List Char) : Option Json :=
  if raw = "null".toList then some .null
  else if raw = "true".toList then some (.bool true)
  else if raw = "false".toList then some (.bool false)
  else (readNumber raw).map fun n => .number n.1 n.2

def stepValue (frames : List Frame) (c : Char) : Option State :=
  if IsWs c then some ⟨.value, frames⟩
  else if c = '"' then some ⟨.text none [] false, frames⟩
  else if c = '[' then some ⟨.value, .array [] :: frames⟩
  else if c = '{' then some ⟨.name [], frames⟩
  else if IsScalar c then some ⟨.scalar [c], frames⟩
  else match frames with
    | .array [] :: frames => if c = ']' then some ⟨.after (.array []), frames⟩ else none
    | _ => none

def stepName (members : List (List Char × Json)) (frames : List Frame) (c : Char) :
    Option State :=
  if IsWs c then some ⟨.name members, frames⟩
  else if c = '"' then some ⟨.text (some members) [] false, frames⟩
  else match members with
    | [] => if c = '}' then some ⟨.after (.object []), frames⟩ else none
    | _ => none

/-- The state after the closing quotation mark. -/
def closed (naming : Option (List (List Char × Json))) (frames : List Frame) (s : List Char) :
    State :=
  match naming with
  | none => ⟨.after (.string s), frames⟩
  | some members => ⟨.colon members s, frames⟩

def stepText (naming : Option (List (List Char × Json))) (raw : List Char) (escaped : Bool)
    (frames : List Frame) (c : Char) : Option State :=
  if escaped then some ⟨.text naming (raw ++ [c]) false, frames⟩
  else if c = '\\' then some ⟨.text naming (raw ++ [c]) true, frames⟩
  else if c = '"' then (unescape raw).map (closed naming frames)
  else some ⟨.text naming (raw ++ [c]) false, frames⟩

def stepColon (members : List (List Char × Json)) (name : List Char) (frames : List Frame)
    (c : Char) : Option State :=
  if IsWs c then some ⟨.colon members name, frames⟩
  else if c = ':' then some ⟨.value, .member members name :: frames⟩
  else none

def stepAfter (v : Json) (frames : List Frame) (c : Char) : Option State :=
  if IsWs c then some ⟨.after v, frames⟩
  else match frames with
    | [] => none
    | .array elements :: frames =>
      if c = ',' then some ⟨.value, .array (elements ++ [v]) :: frames⟩
      else if c = ']' then some ⟨.after (.array (elements ++ [v])), frames⟩
      else none
    | .member members name :: frames =>
      if c = ',' then some ⟨.name (members ++ [(name, v)]), frames⟩
      else if c = '}' then some ⟨.after (.object (members ++ [(name, v)])), frames⟩
      else none

def step : State → Char → Option State
  | ⟨.value, frames⟩, c => stepValue frames c
  | ⟨.name members, frames⟩, c => stepName members frames c
  | ⟨.text naming raw escaped, frames⟩, c => stepText naming raw escaped frames c
  | ⟨.colon members name, frames⟩, c => stepColon members name frames c
  | ⟨.scalar raw, frames⟩, c =>
    if IsScalar c then some ⟨.scalar (raw ++ [c]), frames⟩
    else (readScalar raw).bind (stepAfter · frames c)
  | ⟨.after v, frames⟩, c => stepAfter v frames c

/-- The value of a text that ends in the state. -/
def finish : State → Option Json
  | ⟨.after v, []⟩ => some v
  | ⟨.scalar raw, []⟩ => readScalar raw
  | _ => none

def read (text : List Char) : Option Json := (play step ⟨.value, []⟩ text).bind finish

/-! ## What the reader answers -/

section Sound

/-- Elements of an array, each with its separator. -/
inductive ElementsRead : List Char → List Json → Prop where
  | nil : ElementsRead [] []
  | snoc {ts t c : List Char} {vs : List Json} {v : Json} : ElementsRead ts vs → Value t v →
      Structural ',' c → ElementsRead (ts ++ (t ++ c)) (vs ++ [v])

/-- Members of an object, each with its separator. -/
inductive MembersRead : List Char → List (List Char × Json) → Prop where
  | nil : MembersRead [] []
  | snoc {ts q c t d k : List Char} {ms : List (List Char × Json)} {v : Json} :
      MembersRead ts ms → Quoted q k → Structural ':' c → Value t v → Structural ',' d →
      MembersRead (ts ++ (q ++ (c ++ (t ++ d)))) (ms ++ [(k, v)])

/-- The text up to where a value is to come. -/
inductive Opened : List Char → List Frame → Prop where
  | text {w : List Char} : Ws w → Opened w []
  | array {p b ts : List Char} {vs : List Json} {frames : List Frame} : Opened p frames →
      Structural '[' b → ElementsRead ts vs → Opened (p ++ (b ++ ts)) (.array vs :: frames)
  | member {p b ts q c k : List Char} {ms : List (List Char × Json)} {frames : List Frame} :
      Opened p frames → Structural '{' b → MembersRead ts ms → Quoted q k → Structural ':' c →
      Opened (p ++ (b ++ (ts ++ (q ++ c)))) (.member ms k :: frames)

/-- The text up to where a name is to come. -/
def Naming (p : List Char) (ms : List (List Char × Json)) (frames : List Frame) : Prop :=
  ∃ p' b ts, Opened p' frames ∧ Structural '{' b ∧ MembersRead ts ms ∧ p = p' ++ (b ++ ts)

/-- The text that leads to a state. -/
def Reached (p : List Char) : State → Prop
  | ⟨.value, frames⟩ => Opened p frames
  | ⟨.name members, frames⟩ => Naming p members frames
  | ⟨.text none raw _, frames⟩ => ∃ p', Opened p' frames ∧ p = p' ++ '"' :: raw
  | ⟨.text (some members) raw _, frames⟩ => ∃ p', Naming p' members frames ∧ p = p' ++ '"' :: raw
  | ⟨.colon members name, frames⟩ =>
    ∃ p' q w, Naming p' members frames ∧ Quoted q name ∧ Ws w ∧ p = p' ++ (q ++ w)
  | ⟨.scalar raw, frames⟩ => ∃ p', Opened p' frames ∧ p = p' ++ raw
  | ⟨.after v, frames⟩ => ∃ p' t w, Opened p' frames ∧ Value t v ∧ Ws w ∧ p = p' ++ (t ++ w)

variable {p b t w ts us q : List Char} {c x : Char} {v : Json} {vs : List Json}
  {ms : List (List Char × Json)} {frames : List Frame} {s s' : State}

theorem Ws.nil : Ws [] := fun _ hc => nomatch hc

theorem Ws.snoc (h : Ws w) (hc : IsWs c) : Ws (w ++ [c]) := by
  intro d hd
  rcases List.mem_append.1 hd with hd | hd
  · exact h d hd
  · rw [List.mem_singleton.1 hd]
    exact hc

/-- White space before a structural character. -/
theorem Structural.of_ws (h : Ws w) : Structural c (w ++ [c]) := ⟨w, [], h, .nil, rfl⟩

theorem Structural.one (c : Char) : Structural c [c] := .of_ws .nil

/-- More white space behind it. -/
theorem Structural.snoc (h : Structural x b) (hc : IsWs c) : Structural x (b ++ [c]) := by
  obtain ⟨before, after, hbefore, hafter, rfl⟩ := h
  exact ⟨before, after ++ [c], hbefore, hafter.snoc hc, by simp⟩

theorem ElementsRead.eq_nil (h : ElementsRead ts vs) (hvs : vs = []) : ts = [] := by
  cases h with
  | nil => rfl
  | snoc => simp at hvs

theorem MembersRead.eq_nil (h : MembersRead ts ms) (hms : ms = []) : ts = [] := by
  cases h with
  | nil => rfl
  | snoc => simp at hms

theorem ElementsRead.elements (h : ElementsRead ts vs) {us : List Char} {ws : List Json}
    (hus : Elements us ws) : Elements (ts ++ us) (vs ++ ws) := by
  induction h generalizing us ws with
  | nil => exact hus
  | snoc _ hv hc ih =>
    rw [List.append_assoc, List.append_assoc, List.append_assoc]
    exact ih (.more hv hc hus)

theorem MembersRead.members (h : MembersRead ts ms) {us : List Char}
    {ns : List (List Char × Json)} (hus : Members us ns) : Members (ts ++ us) (ms ++ ns) := by
  induction h generalizing us ns with
  | nil => exact hus
  | snoc _ hk hc hv hd ih =>
    simp only [List.append_assoc]
    exact ih (.more hk hc hv hd hus)

/-- White space before a value. -/
theorem Opened.ws (h : Opened p frames) (hc : IsWs c) : Opened (p ++ [c]) frames := by
  cases h with
  | text hw => exact .text (hw.snoc hc)
  | array hp hb hts =>
    cases hts with
    | nil =>
      have hopened := Opened.array hp (hb.snoc hc) .nil
      simpa using hopened
    | snoc hts hv hd =>
      simp only [List.append_assoc]
      exact .array hp hb (.snoc hts hv (hd.snoc hc))
  | member hp hb hts hk hd =>
    simp only [List.append_assoc]
    exact .member hp hb hts hk (hd.snoc hc)

theorem Naming.ws (h : Naming p ms frames) (hc : IsWs c) : Naming (p ++ [c]) ms frames := by
  obtain ⟨p', b, ts, hp, hb, hts, rfl⟩ := h
  cases hts with
  | nil => exact ⟨p', b ++ [c], [], hp, hb.snoc hc, .nil, by simp⟩
  | snoc hts hk hd hv he =>
    exact ⟨p', b, _, hp, hb, .snoc hts hk hd hv (he.snoc hc), by simp⟩

/-- A complete value behind the text. -/
theorem reached_after (hp : Opened p frames) (hv : Value t v) :
    Reached (p ++ t) ⟨.after v, frames⟩ := ⟨p, t, [], hp, hv, .nil, by simp⟩

theorem reached_stepValue (hp : Opened p frames) (h : stepValue frames c = some s') :
    Reached (p ++ [c]) s' := by
  unfold stepValue at h
  split at h
  · next hc =>
    cases h
    exact hp.ws hc
  split at h
  · next hc =>
    cases h
    exact ⟨p, hp, by rw [hc]⟩
  split at h
  · next hc =>
    cases h
    rw [hc]
    have hopened := Opened.array hp (.one '[') .nil
    rwa [List.append_nil] at hopened
  split at h
  · next hc =>
    cases h
    rw [hc]
    exact ⟨p, ['{'], [], hp, .one '{', .nil, rfl⟩
  split at h
  · cases h
    exact ⟨p, hp, rfl⟩
  split at h
  · next frames =>
    rw [Option.ite_none_right_eq_some, Option.some.injEq] at h
    obtain ⟨rfl, rfl⟩ := h
    cases hp with
    | array hp hb hts =>
      obtain rfl := hts.eq_nil rfl
      have hv := Value.emptyArray hb (.one ']')
      simpa using reached_after hp hv
  · cases h

theorem reached_stepName (hp : Naming p ms frames) (h : stepName ms frames c = some s') :
    Reached (p ++ [c]) s' := by
  unfold stepName at h
  split at h
  · next hc =>
    cases h
    exact hp.ws hc
  split at h
  · next hc =>
    cases h
    exact ⟨p, hp, by rw [hc]⟩
  split at h
  · rw [Option.ite_none_right_eq_some, Option.some.injEq] at h
    obtain ⟨rfl, rfl⟩ := h
    obtain ⟨p', b, ts, hp, hb, hts, rfl⟩ := hp
    obtain rfl := hts.eq_nil rfl
    have hv := Value.emptyObject hb (.one '}')
    simpa using reached_after hp hv
  · cases h

/-- Before the opening quotation mark. -/
def Quoting (p : List Char) (naming : Option (List (List Char × Json))) (frames : List Frame) :
    Prop :=
  match naming with
  | none => Opened p frames
  | some members => Naming p members frames

theorem reached_text {naming : Option (List (List Char × Json))} {raw : List Char}
    {escaped : Bool} :
    Reached p ⟨.text naming raw escaped, frames⟩ ↔
      ∃ p', Quoting p' naming frames ∧ p = p' ++ '"' :: raw := by
  cases naming with
  | none => exact Iff.rfl
  | some members => exact Iff.rfl

theorem reached_closed {naming : Option (List (List Char × Json))} {s : List Char}
    (hp : Quoting p naming frames) (hq : Quoted q s) :
    Reached (p ++ q) (closed naming frames s) := by
  cases naming with
  | none => exact reached_after hp (.string hq)
  | some members => exact ⟨p, q, [], hp, hq, .nil, by simp⟩

theorem reached_stepText {naming : Option (List (List Char × Json))} {raw : List Char}
    {escaped : Bool} (hp : Quoting p naming frames)
    (h : stepText naming raw escaped frames c = some s') :
    Reached (p ++ '"' :: raw ++ [c]) s' := by
  have hmore : ∀ escaped, Reached (p ++ '"' :: raw ++ [c])
      ⟨.text naming (raw ++ [c]) escaped, frames⟩ := fun escaped =>
    reached_text.2 ⟨p, hp, by simp⟩
  unfold stepText at h
  split at h
  · cases h
    exact hmore false
  split at h
  · cases h
    exact hmore true
  split at h
  · next hc =>
    obtain ⟨s, hs, rfl⟩ := Option.map_eq_some_iff.1 h
    rw [hc]
    have hq : Quoted ('"' :: (raw ++ ['"'])) s := ⟨raw, unescape_eq_some_iff.1 hs, rfl⟩
    simpa using reached_closed hp hq
  · cases h
    exact hmore false

theorem reached_stepAfter (hp : Opened p frames) (hv : Value t v) (hw : Ws w)
    (h : stepAfter v frames c = some s') : Reached (p ++ (t ++ w) ++ [c]) s' := by
  unfold stepAfter at h
  split at h
  · next hc =>
    cases h
    exact ⟨p, t, w ++ [c], hp, hv, hw.snoc hc, by simp⟩
  split at h
  · cases h
  · next vs frames =>
    cases hp with
    | @array p b ts _ _ hp hb hts =>
    split at h
    · next hc =>
      cases h
      have hopened := Opened.array hp hb (.snoc hts hv (.of_ws hw))
      simpa [Reached, hc] using hopened
    · rw [Option.ite_none_right_eq_some, Option.some.injEq] at h
      obtain ⟨rfl, rfl⟩ := h
      have harray := Value.array hb (hts.elements (.one hv)) (.of_ws hw)
      simpa using reached_after hp harray
  · next ms k frames =>
    cases hp with
    | @member p b ts q d _ _ _ hp hb hts hk hd =>
    split at h
    · next hc =>
      cases h
      refine ⟨p, b, _, hp, hb, .snoc hts hk hd hv (.of_ws hw), ?_⟩
      simp [hc]
    · rw [Option.ite_none_right_eq_some, Option.some.injEq] at h
      obtain ⟨rfl, rfl⟩ := h
      have hobject := Value.object hb (hts.members (.one hk hd hv)) (.of_ws hw)
      simpa using reached_after hp hobject

theorem value_of_readScalar {raw : List Char} (h : readScalar raw = some v) : Value raw v := by
  unfold readScalar at h
  split at h
  · next hraw =>
    cases h
    rw [hraw]
    exact .null
  split at h
  · next hraw =>
    cases h
    rw [hraw]
    exact .true
  split at h
  · next hraw =>
    cases h
    rw [hraw]
    exact .false
  · obtain ⟨⟨m, x⟩, hread, rfl⟩ := Option.map_eq_some_iff.1 h
    exact .number (readNumber_eq_some_iff.1 hread)

theorem reached_step (hp : Reached p s) (h : step s c = some s') : Reached (p ++ [c]) s' := by
  obtain ⟨phase, frames⟩ := s
  cases phase with
  | value => exact reached_stepValue hp h
  | name ms => exact reached_stepName hp h
  | text naming raw escaped =>
    obtain ⟨p', hquoting, rfl⟩ := reached_text.1 hp
    exact reached_stepText hquoting h
  | colon ms k =>
    obtain ⟨p', q, w, hp, hk, hw, rfl⟩ := hp
    simp only [step, stepColon] at h
    split at h
    · next hc =>
      cases h
      exact ⟨p', q, w ++ [c], hp, hk, hw.snoc hc, by simp⟩
    · rw [Option.ite_none_right_eq_some, Option.some.injEq] at h
      obtain ⟨rfl, rfl⟩ := h
      obtain ⟨p', b, ts, hp, hb, hts, rfl⟩ := hp
      have hopened := Opened.member hp hb hts hk (.of_ws hw)
      simpa [Reached] using hopened
  | scalar raw =>
    obtain ⟨p', hp, rfl⟩ := hp
    simp only [step] at h
    split at h
    · cases h
      exact ⟨p', hp, by simp⟩
    · obtain ⟨v, hv, h⟩ := Option.bind_eq_some_iff.1 h
      simpa using reached_stepAfter hp (value_of_readScalar hv) .nil h
  | after v =>
    obtain ⟨p', t, w, hp, hv, hw, rfl⟩ := hp
    exact reached_stepAfter hp hv hw h

theorem reached_play (hp : Reached p s) (h : play step s t = some s') : Reached (p ++ t) s' := by
  induction t generalizing p s with
  | nil =>
    cases h
    rwa [List.append_nil]
  | cons c t ih =>
    obtain ⟨s1, hs1, h⟩ := play_cons_iff.1 h
    have hrest := ih (reached_step hp hs1) h
    rwa [List.append_assoc] at hrest

theorem text_of_finish (hp : Reached p s) (h : finish s = some v) : Text p v := by
  unfold finish at h
  split at h
  · cases h
    obtain ⟨p', t, w, hp, hv, hw, rfl⟩ := hp
    cases hp with
    | text hbefore => exact ⟨p', t, w, hbefore, hv, hw, rfl⟩
  · obtain ⟨p', hp, rfl⟩ := hp
    cases hp with
    | text hbefore =>
      exact ⟨p', _, [], hbefore, value_of_readScalar h, .nil, by simp⟩
  · cases h

theorem text_of_read (h : read t = some v) : Text t v := by
  obtain ⟨s, hplay, hfinish⟩ := Option.bind_eq_some_iff.1 h
  have hstart : Reached [] ⟨.value, []⟩ := .text .nil
  exact text_of_finish (reached_play hstart hplay) hfinish

end Sound

end X360Port.Library.Json
