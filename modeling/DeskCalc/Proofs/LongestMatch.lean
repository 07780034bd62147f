import DeskCalc.Proofs.Scanner

/-!
# The longest lexeme at every place

A grammar that says which characters each token of a line takes, without saying how they are found:
spaces apart, a number or name takes as many characters as make one up, and any other token takes
one.  The grammar cuts a line in one way only, and the tokens that are read from a line are cut in
this way.  No number that is scanned can fail to parse.

## Key results

- `Lexeme.longest_takeRun`: a scan takes the longest text of its kind
- `Lexeme.munch_of_next?`: the first lexeme of a text is the one of the grammar
- `Lexeme.Cuts.unique`, `Lexeme.cuts_readings`: the grammar cuts a line in one way, into its lexemes
- `TokenStream.scanWith_eq_scan`: the text of a number is one that the literals' parser accepts
- `TokenStream.reads_longest_lexemes`: what is read from a line, and where reading stands
-/

namespace DeskCalc

namespace Lexeme

/-! ## The texts of numbers and names -/

/-- One digit or more, and behind them nothing, or a point and any number of digits. -/
def IsNumberText (text : List Char) : Prop :=
  ∃ whole tail, text = whole ++ tail ∧ whole ≠ [] ∧ (∀ c ∈ whole, c.isDigit = true) ∧
    (tail = [] ∨ ∃ fraction, tail = '.' :: fraction ∧ ∀ c ∈ fraction, c.isDigit = true)

/-- A letter, and behind it any number of letters and digits. -/
def IsNameText (text : List Char) : Prop :=
  ∃ first more, text = first :: more ∧ Text.isAlphabetic first = true ∧
    ∀ c ∈ more, Text.isAlphabetic c = true ∨ c.isDigit = true

/-- `text` is the longest text of a kind with which `cs` starts. -/
structure Longest (Kind : List Char → Prop) (cs text : List Char) : Prop where
  start : text <+: cs
  kind : Kind text
  length_le : ∀ other, other <+: cs → Kind other → other.length ≤ text.length

/-- Two longest texts of a kind have one length, so they are the same. -/
theorem Longest.unique {Kind : List Char → Prop} {cs text text' : List Char}
    (h : Longest Kind cs text) (h' : Longest Kind cs text') : text = text' := by
  have hle := h'.length_le text h.start h.kind
  have hge := h.length_le text' h'.start h'.kind
  have hstart : text <+: text' := List.prefix_of_prefix_length_le h.start h'.start hle
  exact hstart.eq_of_length (by omega)

/-! ### Texts that a scan goes through -/

open TokenStream (extendNumber extendName takeRun)

/-- A scan that has read what `state` recalls goes on through the whole text. -/
def GoesOn {α : Type} (extend : α → Char → Option α) (state : α) (text : List Char) : Prop :=
  (text.foldlM extend state).isSome = true

/-- A scan goes on through nothing. -/
theorem goesOn_nil {α : Type} (extend : α → Char → Option α) (state : α) :
    GoesOn extend state [] := rfl

/-- A scan goes on through a text if it goes on through its first character and then the rest. -/
theorem goesOn_cons {α : Type} {extend : α → Char → Option α} {state : α} {c : Char}
    {cs : List Char} :
    GoesOn extend state (c :: cs) ↔ ∃ state', extend state c = some state' ∧
      GoesOn extend state' cs := by
  unfold GoesOn
  rw [List.foldlM_cons]
  cases extend state c with
  | none => simp
  | some state' => simp

/-- A scan goes on through digits, whatever it has read of a number. -/
private theorem goesOn_extendNumber_digits {seenPoint : Bool} {ds : List Char}
    (hds : ∀ c ∈ ds, c.isDigit = true) (more : List Char) :
    GoesOn extendNumber seenPoint (ds ++ more) ↔ GoesOn extendNumber seenPoint more := by
  induction ds with
  | nil => rfl
  | cons d ds ih =>
    have hd : d.isDigit = true := hds d List.mem_cons_self
    have hmore : ∀ c ∈ ds, c.isDigit = true := fun c hc => hds c (List.mem_cons_of_mem d hc)
    rw [List.cons_append, goesOn_cons]
    simp only [extendNumber, if_pos hd, Option.some.injEq, exists_eq_left', ih hmore]

/-- Behind its point, a number goes on through digits only. -/
private theorem goesOn_extendNumber_true_iff {cs : List Char} :
    GoesOn extendNumber true cs ↔ ∀ c ∈ cs, c.isDigit = true := by
  induction cs with
  | nil => simp [goesOn_nil]
  | cons c cs ih =>
    rw [goesOn_cons, List.forall_mem_cons]
    by_cases hc : c.isDigit
    · simp [extendNumber, hc, ih]
    · simp [extendNumber, hc]

/-- The texts that start with a digit and that a scan goes through are the numbers. -/
theorem isNumberText_cons_iff {c : Char} {cs : List Char} :
    IsNumberText (c :: cs) ↔ c.isDigit = true ∧ GoesOn extendNumber false cs := by
  constructor
  · rintro ⟨whole, tail, htext, hne, hwhole, htail⟩
    obtain ⟨d, ds, rfl⟩ := List.exists_cons_of_ne_nil hne
    rw [List.cons_append, List.cons.injEq] at htext
    obtain ⟨rfl, rfl⟩ := htext
    refine ⟨hwhole c List.mem_cons_self, ?_⟩
    -- the scan runs through the other digits, and then it stands in front of the point
    rw [goesOn_extendNumber_digits fun x hx => hwhole x (List.mem_cons_of_mem c hx)]
    rcases htail with rfl | ⟨fraction, rfl, hfraction⟩
    · exact goesOn_nil extendNumber false
    · rw [goesOn_cons]
      exact ⟨true, rfl, goesOn_extendNumber_true_iff.2 hfraction⟩
  · rintro ⟨hc, hcs⟩
    -- the digits up to the point, and the point with what is behind it
    induction cs generalizing c with
    | nil => exact ⟨[c], [], rfl, by simp, by simpa using hc, Or.inl rfl⟩
    | cons d ds ih =>
      obtain ⟨seenPoint, hextend, hds⟩ := goesOn_cons.1 hcs
      by_cases hd : d.isDigit
      · have hstate : seenPoint = false := by simpa [extendNumber, hd, eq_comm] using hextend
        subst hstate
        obtain ⟨whole, tail, htext, hne, hwhole, htail⟩ := ih hd hds
        refine ⟨c :: whole, tail, by rw [htext]; rfl, by simp, ?_, htail⟩
        rw [List.forall_mem_cons]
        exact ⟨hc, hwhole⟩
      · have hpoint : d = '.' ∧ seenPoint = true := by
          simpa [extendNumber, hd, eq_comm] using hextend
        obtain ⟨rfl, rfl⟩ := hpoint
        have hdigits := goesOn_extendNumber_true_iff.1 hds
        exact ⟨[c], '.' :: ds, rfl, by simp, by simpa using hc, Or.inr ⟨ds, rfl, hdigits⟩⟩

/-- A name goes on through letters and digits. -/
private theorem goesOn_extendName_iff {cs : List Char} :
    GoesOn extendName () cs ↔ ∀ c ∈ cs, Text.isAlphabetic c = true ∨ c.isDigit = true := by
  induction cs with
  | nil => simp [goesOn_nil]
  | cons c cs ih =>
    have hc : isNameChar c = true ↔ Text.isAlphabetic c = true ∨ c.isDigit = true := by
      rw [isNameChar, Bool.or_eq_true]
    rw [goesOn_cons, List.forall_mem_cons, ← hc, ← ih]
    -- a name has no state to keep, so each character counts alone
    by_cases h : isNameChar c
    · have hext : extendName () c = some () := if_pos h
      rw [hext, and_iff_right h]
      constructor
      · rintro ⟨_, -, hgoes⟩
        exact hgoes
      · intro hgoes
        exact ⟨(), rfl, hgoes⟩
    · simp [extendName, h]

/-- The texts that start with a letter and that a scan goes through are the names. -/
private theorem isNameText_cons_iff {c : Char} {cs : List Char} :
    IsNameText (c :: cs) ↔ Text.isAlphabetic c = true ∧ GoesOn extendName () cs := by
  rw [goesOn_extendName_iff]
  constructor
  · rintro ⟨first, more, htext, hfirst, hmore⟩
    obtain ⟨rfl, rfl⟩ := List.cons.inj htext
    exact ⟨hfirst, hmore⟩
  · rintro ⟨hc, hcs⟩
    exact ⟨c, cs, rfl, hc, hcs⟩

/-! ### A scan takes the longest text -/

/-- `takeRun` splits the text. -/
private theorem takeRun_append_eq {α : Type} (extend : α → Char → Option α) (state : α)
    (cs : List Char) :
    (takeRun extend state cs).1 ++ (takeRun extend state cs).2 = cs := by
  induction cs generalizing state with
  | nil => rfl
  | cons c cs ih =>
    rw [takeRun]
    cases extend state c with
    | none => rfl
    | some state' => exact congrArg (List.cons c) (ih state')

/-- A scan goes on through what it takes. -/
private theorem goesOn_takeRun {α : Type} (extend : α → Char → Option α) (state : α)
    (cs : List Char) :
    GoesOn extend state (takeRun extend state cs).1 := by
  induction cs generalizing state with
  | nil => exact goesOn_nil extend state
  | cons c cs ih =>
    rw [takeRun]
    cases hext : extend state c with
    | none => exact goesOn_nil extend state
    | some state' => exact goesOn_cons.2 ⟨state', hext, ih state'⟩

/-- A text that a scan goes through is taken at least. -/
private theorem length_le_takeRun {α : Type} {extend : α → Char → Option α} {state : α}
    {text cs : List Char} (hstart : text <+: cs) (hgoes : GoesOn extend state text) :
    text.length ≤ (takeRun extend state cs).1.length := by
  induction text generalizing state cs with
  | nil => exact Nat.zero_le _
  | cons c text ih =>
    obtain ⟨rest, rfl⟩ := hstart
    -- the first character belongs to the token, so the scan takes it as well
    obtain ⟨state', hext, hgoes'⟩ := goesOn_cons.1 hgoes
    have hle : text.length ≤ (takeRun extend state' (text ++ rest)).1.length :=
      ih (List.prefix_append text rest) hgoes'
    rw [List.cons_append, takeRun]
    simp only [hext, List.length_cons]
    omega

/-- If the texts of a kind are those with a certain first character that a scan goes through, then
    the scan takes the longest of them. -/
theorem longest_takeRun {α : Type} {extend : α → Char → Option α} {state : α}
    {Kind : List Char → Prop} (Starts : Char → Prop) (hnil : ¬ Kind [])
    (hkind : ∀ c cs, Kind (c :: cs) ↔ Starts c ∧ GoesOn extend state cs) {c : Char}
    (hc : Starts c) (cs : List Char) :
    Longest Kind (c :: cs) (c :: (takeRun extend state cs).1) := by
  refine ⟨?_, ?_, ?_⟩
  · refine ⟨(takeRun extend state cs).2, ?_⟩
    rw [List.cons_append, takeRun_append_eq]
  · exact (hkind _ _).2 ⟨hc, goesOn_takeRun extend state cs⟩
  · intro other hstart hother
    cases other with
    | nil => exact absurd hother hnil
    | cons x other =>
      obtain ⟨rest, hrest⟩ := hstart
      rw [List.cons_append, List.cons.injEq] at hrest
      obtain ⟨-, rfl⟩ := hrest
      have hle := length_le_takeRun (List.prefix_append other rest) ((hkind _ _).1 hother).2
      simp only [List.length_cons]
      omega

/-- `splitNumber` takes the longest number. -/
theorem longest_splitNumber {c : Char} (hc : c.isDigit = true) (cs : List Char) :
    Longest IsNumberText (c :: cs) (splitNumber (c :: cs)).1 := by
  have hnil : ¬ IsNumberText [] := by
    rintro ⟨whole, tail, htext, hne, -⟩
    exact hne (List.append_eq_nil_iff.1 htext.symm).1
  rw [TokenStream.splitNumber_cons hc, ← TokenStream.takeRun_extendNumber_false]
  exact longest_takeRun (fun c => c.isDigit = true) hnil
    (fun _ _ => isNumberText_cons_iff) hc cs

/-- `splitName` takes the longest name. -/
theorem longest_splitName {c : Char} (hc : Text.isAlphabetic c = true) (cs : List Char) :
    Longest IsNameText (c :: cs) (splitName (c :: cs)).1 := by
  have hnil : ¬ IsNameText [] := by
    rintro ⟨first, more, htext, -⟩
    cases htext
  have hname : isNameChar c = true := by rw [isNameChar, hc, Bool.true_or]
  rw [TokenStream.splitName_cons hname, ← TokenStream.takeRun_extendName]
  exact longest_takeRun (fun c => Text.isAlphabetic c = true) hnil
    (fun _ _ => isNameText_cons_iff) hc cs

/-! ## The grammar of lexemes -/

/-- The token with which a text starts, and the characters that it takes. -/
inductive Munch : List Char → Token → List Char → Prop
  | number {c : Char} {cs text : List Char} (hc : c.isDigit = true)
      (h : Longest IsNumberText (c :: cs) text) :
      Munch (c :: cs) (.number (Decimal.readLiteral text)) text
  | name {c : Char} {cs text : List Char} (hc : Text.isAlphabetic c = true)
      (h : Longest IsNameText (c :: cs) text) :
      Munch (c :: cs) (.name (String.ofList text)) text
  | other {c : Char} {cs : List Char} (hspace : c ≠ ' ') (hdigit : c.isDigit = false)
      (hletter : Text.isAlphabetic c = false) :
      Munch (c :: cs) ((Token.ofSymbol? c).getD (.invalid c)) [c]

/-- The letters start at `A`. -/
theorem isAlphabetic_eq_false_of_lt {c : Char} (h : c.toNat < 0x41) :
    Text.isAlphabetic c = false := by
  show Text.inRanges c.toNat ((0x41, 0x5A) :: Text.alphabeticRanges.tail) = false
  rw [Text.inRanges, if_pos h]

/-- No character is a digit and a letter. -/
theorem isAlphabetic_eq_false_of_isDigit {c : Char} (h : c.isDigit = true) :
    Text.isAlphabetic c = false := by
  have hle : c.toNat ≤ 0x39 := by
    simp only [Char.isDigit, Bool.and_eq_true, decide_eq_true_eq] at h
    exact UInt32.le_iff_toNat_le.1 h.2
  exact isAlphabetic_eq_false_of_lt (by omega)

/-- No character that stands for a token starts a number or name. -/
theorem not_operand_of_ofSymbol? {c : Char} {t : Token} (h : Token.ofSymbol? c = some t) :
    c ≠ ' ' ∧ c.isDigit = false ∧ Text.isAlphabetic c = false := by
  unfold Token.ofSymbol? at h
  split at h
  -- the seven characters, and those that stand for no token
  iterate 7 exact ⟨by decide, by decide, by decide⟩
  cases h

/-- The characters that a token takes stand in front. -/
theorem Munch.start {cs text : List Char} {t : Token} (h : Munch cs t text) : text <+: cs := by
  cases h with
  | number _ hlongest => exact hlongest.start
  | name _ hlongest => exact hlongest.start
  | other _ _ _ => exact ⟨_, rfl⟩

/-- No token starts with a space. -/
theorem Munch.head_ne_space {c : Char} {cs text : List Char} {t : Token}
    (h : Munch (c :: cs) t text) : c ≠ ' ' := by
  rintro rfl
  cases h with
  | number hc _ => exact absurd hc (by decide)
  | name hc _ => exact absurd hc (by decide)
  | other hspace _ _ => exact hspace rfl

/-- A text starts with one token only. -/
theorem Munch.unique {cs text text' : List Char} {t t' : Token} (h : Munch cs t text)
    (h' : Munch cs t' text') : t = t' ∧ text = text' := by
  -- digits, letters and other characters exclude each other, so both are of the same kind
  cases h with
  | number hc hlongest =>
    cases h' with
    | number _ hlongest' =>
      obtain rfl := hlongest.unique hlongest'
      exact ⟨rfl, rfl⟩
    | name hc' _ => simp [isAlphabetic_eq_false_of_isDigit hc] at hc'
    | other _ hdigit _ => simp [hc] at hdigit
  | name hc hlongest =>
    cases h' with
    | number hc' _ => simp [isAlphabetic_eq_false_of_isDigit hc'] at hc
    | name _ hlongest' =>
      obtain rfl := hlongest.unique hlongest'
      exact ⟨rfl, rfl⟩
    | other _ _ hletter => simp [hc] at hletter
  | other _ hdigit hletter =>
    cases h' with
    | number hc' _ => simp [hdigit] at hc'
    | name hc' _ => simp [hletter] at hc'
    | other _ _ _ => exact ⟨rfl, rfl⟩

/-- A character that goes on with no number or name is a token of its own. -/
theorem Munch.eq_of_isStop {cs text : List Char} {t : Token} (h : Munch cs t text) {x : Char}
    (hstop : IsStop x) (hx : x ∈ text) :
    text = [x] ∧ t = (Token.ofSymbol? x).getD (.invalid x) := by
  have hdigit : x.isDigit = false := hstop.isDigit_eq_false
  have hletter : Text.isAlphabetic x = false := (Bool.or_eq_false_iff.1 hstop.1).1
  cases h with
  | number hc hlongest =>
    obtain ⟨whole, tail, rfl, -, hwhole, htail⟩ := hlongest.kind
    -- the digits and the point of a number are no such characters
    have hpoint : x ∉ tail := by
      rcases htail with rfl | ⟨fraction, rfl, hfraction⟩
      · exact List.not_mem_nil
      · rw [List.mem_cons, not_or]
        refine ⟨hstop.2, fun hmem => ?_⟩
        rw [hfraction x hmem] at hdigit
        cases hdigit
    rcases List.mem_append.1 hx with hmem | hmem
    · rw [hwhole x hmem] at hdigit
      cases hdigit
    · exact absurd hmem hpoint
  | name hc hlongest =>
    obtain ⟨first, more, rfl, hfirst, hmore⟩ := hlongest.kind
    rcases List.mem_cons.1 hx with rfl | hmem
    · rw [hfirst] at hletter
      cases hletter
    · rcases hmore x hmem with h | h
      · rw [h] at hletter
        cases hletter
      · rw [h] at hdigit
        cases hdigit
  | other _ _ _ =>
    obtain rfl := List.mem_singleton.1 hx
    exact ⟨rfl, rfl⟩

/-- A token other than a number or name takes one character. -/
theorem Munch.exists_of_not_operand {cs text : List Char} {t : Token} (h : Munch cs t text)
    (hnumber : ∀ x, t ≠ .number x) (hname : ∀ n, t ≠ .name n) :
    ∃ x, text = [x] ∧ t = (Token.ofSymbol? x).getD (.invalid x) := by
  cases h with
  | number _ _ => exact absurd rfl (hnumber _)
  | name _ _ => exact absurd rfl (hname _)
  | other _ _ _ => exact ⟨_, rfl, rfl⟩

/-- `startingAt` takes the token with which the text starts. -/
theorem munch_startingAt {c : Char} (hc : c ≠ ' ') (gap : Nat) (cs : List Char) :
    Munch (c :: cs) (startingAt gap c cs).1.token (startingAt gap c cs).1.text := by
  -- the branches of `startingAt` are the cases of `Munch`
  unfold startingAt
  cases hsymbol : Token.ofSymbol? c with
  | some t =>
    obtain ⟨hspace, hdigit, hletter⟩ := not_operand_of_ofSymbol? hsymbol
    have hother : Munch (c :: cs) ((Token.ofSymbol? c).getD (.invalid c)) [c] :=
      .other hspace hdigit hletter
    rwa [hsymbol] at hother
  | none =>
    by_cases hd : c.isDigit
    · simp only [if_pos hd]
      exact .number hd (longest_splitNumber hd cs)
    · by_cases ha : Text.isAlphabetic c
      · simp only [if_neg hd, if_pos ha]
        exact .name ha (longest_splitName ha cs)
      · simp only [if_neg hd, if_neg ha]
        have hother : Munch (c :: cs) ((Token.ofSymbol? c).getD (.invalid c)) [c] :=
          .other hc (Bool.eq_false_iff.2 hd) (Bool.eq_false_iff.2 ha)
        rwa [hsymbol] at hother

/-- The first lexeme of a text is the one with which the text starts behind its spaces. -/
theorem munch_of_next? {cs rest : List Char} {l : Lexeme} (h : next? cs = some (l, rest)) :
    ∃ cs', cs = List.replicate l.gap ' ' ++ cs' ∧ Munch cs' l.token l.text ∧
      rest = cs'.drop l.text.length := by
  obtain ⟨c, cs', hc, rfl, hs⟩ := next?_eq_some h
  have hmunch := munch_startingAt hc l.gap cs'
  have happend := text_append_startingAt l.gap c cs'
  rw [hs] at hmunch happend
  -- what is left of the text is what is behind the token
  refine ⟨c :: cs', rfl, hmunch, ?_⟩
  rw [← happend, List.drop_left]

/-! ## The grammar of lines -/

/-- A token as it is reported: its characters, and the index behind the last of them. -/
structure Reading where
  token : Token
  text : List Char
  stop : Nat

/-- Behind its first `n` characters a line goes on with `cs`, up to its end, and is cut into these
    tokens. -/
inductive Cuts : Nat → List Char → List Reading → Prop
  | space {n : Nat} {cs : List Char} {rs : List Reading} (h : Cuts (n + 1) cs rs) :
      Cuts n (' ' :: cs) rs
  | endOfLine {n : Nat} {cs text : List Char} (h : Munch cs .endOfLine text) :
      Cuts n cs [⟨.endOfLine, text, n + text.length⟩]
  | token {n : Nat} {cs text : List Char} {t : Token} {rs : List Reading} (h : Munch cs t text)
      (ht : t ≠ .endOfLine) (hrest : Cuts (n + text.length) (cs.drop text.length) rs) :
      Cuts n cs (⟨t, text, n + text.length⟩ :: rs)

/-- There is one way only to cut a line. -/
theorem Cuts.unique {n : Nat} {cs : List Char} {rs rs' : List Reading} (h : Cuts n cs rs)
    (h' : Cuts n cs rs') : rs = rs' := by
  -- the first token is the same for both, so the induction hypothesis is about one rest
  induction h generalizing rs' with
  | space _ ih =>
    cases h' with
    | space h' => exact ih h'
    | endOfLine h' => exact absurd rfl h'.head_ne_space
    | token h' _ _ => exact absurd rfl h'.head_ne_space
  | endOfLine h =>
    cases h' with
    | space _ => exact absurd rfl h.head_ne_space
    | endOfLine h' =>
      obtain ⟨-, rfl⟩ := h.unique h'
      rfl
    | token h' ht _ => exact absurd (h.unique h').1.symm ht
  | token h ht _ ih =>
    cases h' with
    | space _ => exact absurd rfl h.head_ne_space
    | endOfLine h' => exact absurd (h.unique h').1 ht
    | token h' _ hrest' =>
      obtain ⟨rfl, rfl⟩ := h.unique h'
      rw [ih hrest']

/-- Spaces in front do not change how a line is cut. -/
private theorem cuts_replicate_append {n k : Nat} {cs : List Char} {rs : List Reading}
    (h : Cuts (n + k) cs rs) : Cuts n (List.replicate k ' ' ++ cs) rs := by
  induction k generalizing n with
  | zero => exact h
  | succ k ih =>
    have heq : n + (k + 1) = n + 1 + k := by omega
    rw [heq] at h
    exact .space (ih h)

/-- Lexemes as they are reported behind the first `n` characters of a line. -/
def readings : Nat → List Lexeme → List Reading
  | _, [] => []
  | n, l :: ls => ⟨l.token, l.text, n + l.size⟩ :: readings (n + l.size) ls

/-- A text with an end of line is cut into its lexemes. -/
theorem cuts_readings {cs : List Char} (hmem : '\n' ∈ cs) (n : Nat) :
    Cuts n cs (readings n (line cs)) := by
  induction cs using line.induct generalizing n with
  | case1 cs hnone =>
    -- a text of spaces has no end of line
    rw [nextFrom?_eq_none_iff.1 hnone] at hmem
    exact absurd (List.eq_of_mem_replicate hmem) (by decide)
  | case2 cs l rest hnext ht =>
    obtain ⟨cs', rfl, hmunch, -⟩ := munch_of_next? hnext
    rw [line_of_some hnext, if_pos ht]
    apply cuts_replicate_append
    have hlast : Cuts (n + l.gap) cs' [⟨.endOfLine, l.text, n + l.gap + l.text.length⟩] :=
      .endOfLine (ht ▸ hmunch)
    -- spaces and text together are the size of the lexeme
    rwa [← ht, Nat.add_assoc] at hlast
  | case3 cs l rest hnext ht ih =>
    have hrest := newline_mem_of_next? hnext ht hmem
    obtain ⟨cs', rfl, hmunch, rfl⟩ := munch_of_next? hnext
    rw [line_of_some hnext, if_neg ht]
    apply cuts_replicate_append
    have hih := ih hrest (n + l.size)
    rw [size, ← Nat.add_assoc] at hih
    have htoken := Cuts.token hmunch ht hih
    rwa [Nat.add_assoc] at htoken

/-- No character that stands for a token is invalid. -/
theorem ofSymbol?_ne_invalid (x c : Char) : Token.ofSymbol? x ≠ some (.invalid c) := by
  unfold Token.ofSymbol?
  split <;> simp

/-- An invalid token is a character that starts no number. -/
private theorem Munch.of_invalid {cs text : List Char} {t : Token} {c : Char} (h : Munch cs t text)
    (ht : t = .invalid c) : text = [c] ∧ c.isDigit = false := by
  cases h with
  | number _ _ => cases ht
  | name _ _ => cases ht
  | @other x _ _ hdigit _ =>
    cases hsymbol : Token.ofSymbol? x with
    | none =>
      rw [hsymbol] at ht
      cases ht
      exact ⟨rfl, hdigit⟩
    | some t =>
      rw [hsymbol] at ht
      exact absurd (hsymbol.trans (congrArg some ht)) (ofSymbol?_ne_invalid x c)

/-- An invalid token in a line is a character that starts no number. -/
private theorem Cuts.of_invalid {n : Nat} {cs : List Char} {rs : List Reading} (h : Cuts n cs rs)
    {r : Reading} (hr : r ∈ rs) {c : Char} (ht : r.token = .invalid c) :
    r.text = [c] ∧ c.isDigit = false := by
  induction h with
  | space _ ih => exact ih hr
  | endOfLine _ =>
    obtain rfl := List.mem_singleton.1 hr
    cases ht
  | token hmunch _ _ ih =>
    rcases List.mem_cons.1 hr with rfl | hr
    · exact hmunch.of_invalid ht
    · exact ih hr

/-- A line has a token, the end of the line if no other. -/
private theorem Cuts.ne_nil {n : Nat} {cs : List Char} {rs : List Reading} (h : Cuts n cs rs) :
    rs ≠ [] := by
  induction h with
  | space _ ih => exact ih
  | endOfLine _ => exact List.cons_ne_nil _ _
  | token _ _ _ _ => exact List.cons_ne_nil _ _

/-- The text of a token stands in the line, and the token is reported with the index behind it. -/
private theorem Cuts.exists_append {n : Nat} {cs : List Char} {rs : List Reading} (h : Cuts n cs rs)
    {r : Reading} (hr : r ∈ rs) :
    ∃ before after, cs = before ++ r.text ++ after ∧
      r.stop = n + (before ++ r.text).length := by
  induction h with
  | space _ ih =>
    obtain ⟨before, after, hcs, hstop⟩ := ih hr
    refine ⟨' ' :: before, after, by rw [hcs]; rfl, ?_⟩
    rw [hstop, List.cons_append, List.length_cons]
    omega
  | endOfLine hmunch =>
    obtain rfl := List.mem_singleton.1 hr
    obtain ⟨after, hcs⟩ := hmunch.start
    exact ⟨[], after, hcs.symm, rfl⟩
  | @token n cs text _ _ hmunch _ _ ih =>
    obtain ⟨after, hcs⟩ := hmunch.start
    rcases List.mem_cons.1 hr with rfl | hr
    · exact ⟨[], after, hcs.symm, rfl⟩
    · obtain ⟨before, after', hdrop, hstop⟩ := ih hr
      rw [← hcs, List.drop_left] at hdrop
      -- what stands before the later token starts with the text of this one
      refine ⟨text ++ before, after', ?_, ?_⟩
      · rw [← hcs, hdrop]
        simp only [List.append_assoc]
      · rw [hstop]
        simp only [List.length_append]
        omega

/-! ### Nothing is lost but the spaces -/

/-- No token has a space in it. -/
private theorem Munch.space_not_mem {cs text : List Char} {t : Token} (h : Munch cs t text) :
    ' ' ∉ text := by
  intro hmem
  obtain ⟨rest, hrest⟩ := h.start
  obtain ⟨htext, -⟩ := h.eq_of_isStop isStop_space hmem
  rw [htext, List.singleton_append] at hrest
  subst hrest
  exact h.head_ne_space rfl

/-- Without its spaces, what was read of a lexeme is its text. -/
private theorem filter_written {cs : List Char} {l : Lexeme} (hl : l ∈ line cs) :
    l.written.filter (· ≠ ' ') = l.text := by
  obtain ⟨cs', -, hmunch, -⟩ := munch_of_next? (standalone_of_mem_line hl)
  have hspace : ' ' ∉ l.text := hmunch.space_not_mem
  have hgap : (List.replicate l.gap ' ').filter (· ≠ ' ') = [] := by simp
  have htext : l.text.filter (· ≠ ' ') = l.text := by
    rw [List.filter_eq_self]
    intro c hc
    rw [decide_eq_true_eq]
    rintro rfl
    exact hspace hc
  -- the gap is dropped and the text is kept
  rw [written, List.filter_append, hgap, htext, List.nil_append]

/-- The texts that are reported are those of the lexemes. -/
private theorem flatMap_text_readings (n : Nat) (ls : List Lexeme) :
    (readings n ls).flatMap Reading.text = ls.flatMap Lexeme.text := by
  induction ls generalizing n with
  | nil => rfl
  | cons l ls ih => rw [readings, List.flatMap_cons, List.flatMap_cons, ih]

/-- The texts of the lexemes of a line are the line without its spaces. -/
private theorem flatMap_text_line {cs : List Char} (h : '\n' ∉ cs) :
    (line (cs ++ ['\n'])).flatMap Lexeme.text = cs.filter (· ≠ ' ') ++ ['\n'] := by
  obtain ⟨gap, hline, hwritten⟩ := exists_line_append_newline cs h
  have htexts : ((line cs).flatMap written).filter (· ≠ ' ') = (line cs).flatMap text := by
    rw [List.filter_flatMap]
    exact List.flatMap_congr fun l hl => filter_written hl
  -- without their spaces, the line and what was read of its lexemes are the same
  have hfilter := congrArg (List.filter (· ≠ ' ')) hwritten
  have hgap : (List.replicate gap ' ').filter (· ≠ ' ') = [] := by simp
  rw [List.filter_append, htexts, hgap, List.append_nil] at hfilter
  rw [hline, List.flatMap_append, hfilter, List.flatMap_singleton]

end Lexeme

/-! ## Reading a line -/

namespace TokenStream

open Lexeme (IsNumberText GoesOn goesOn_nil goesOn_cons isNumberText_cons_iff Reading Cuts readings)

variable {σ : Type} [LineSource σ]

/-- A way to read a token.  The outer error is a misuse of the pushback slot. -/
abbrev Reader (σ : Type) : Type :=
  TokenStream σ → Except CursorError (Except InputError Token × TokenStream σ)

/-! ### A parser of literals that can fail -/

/-- The token of a number whose literal is parsed: its first character, if it does not parse. -/
def numberToken (parse? : List Char → Option Float) (text : List Char) : Token :=
  match parse? text with
  | some value => .number value
  | none => .invalid (text.headD '0')

/-- Scans the token that starts with `c`, which has been read, and parses it if it is a number. -/
def scanFromWith (parse? : List Char → Option Float) (c : Char) : Reader σ := fun s =>
  let s := { s with text := [c] }
  match Token.ofSymbol? c with
  | some token => .ok (.ok token, s)
  | none =>
    if c.isDigit then s.scanOperand numberRun false (numberToken parse?)
    else if Text.isAlphabetic c then
      s.scanOperand nameRun () fun text => .name (String.ofList text)
    else .ok (.ok (.invalid c), s)

/-- Scans a token with a parser of literals. -/
def scanWith (parse? : List Char → Option Float) : Reader σ := fun s =>
  match s.skipSpaces with
  | (.error e, s) => .ok (.error e, s)
  | (.ok c, s) => s.scanFromWith parse? c

/-- Reading a character does not change the text of the token. -/
private theorem text_of_nextChar {s s' : TokenStream σ} {c : Char} (h : s.nextChar = (.ok c, s')) :
    s'.text = s.text := by
  unfold nextChar at h
  split at h
  · cases h
  · next filled hfill =>
    -- pulling a line does not touch the text either
    have htext : filled.text = s.text := by
      rcases fill_eq_ok hfill with ⟨-, rfl⟩ | ⟨-, text, source, -, -, rfl⟩
      · rfl
      · rfl
    split at h
    · cases h
    · cases h
      exact htext

/-- A scan adds to the text what it goes through. -/
private theorem exists_text_scanRun {α : Type} {k : Continuation α} {state : α}
    {s s' : TokenStream σ} (h : s.scanRun k state = (.ok (), s')) :
    ∃ taken, s'.text = s.text ++ taken ∧ GoesOn k.extend state taken := by
  fun_induction scanRun k state s with
  | case1 state s e s₁ hchar => cases h
  | case2 state s c s₁ hchar state' hext ih =>
    obtain ⟨taken, htext, hgoes⟩ := ih h
    have htext₁ : s₁.text = s.text := text_of_nextChar hchar
    refine ⟨c :: taken, ?_, goesOn_cons.2 ⟨state', hext, hgoes⟩⟩
    rw [htext, addToText, htext₁, List.append_assoc, List.singleton_append]
  | case3 state s c s₁ hchar hext =>
    cases h
    refine ⟨[], ?_, goesOn_nil k.extend state⟩
    rw [List.append_nil]
    exact text_of_nextChar hchar

/-- The token of a number or name is made of the text with what the scan went through. -/
private theorem scanOperand_congr {α : Type} {k : Continuation α} {state : α}
    {token token' : List Char → Token} {s : TokenStream σ}
    (h : ∀ taken, GoesOn k.extend state taken →
      token (s.text ++ taken) = token' (s.text ++ taken)) :
    s.scanOperand k state token = s.scanOperand k state token' := by
  unfold scanOperand
  cases hrun : s.scanRun k state with
  | mk r s₁ =>
    cases r with
    | error e => rfl
    | ok =>
      obtain ⟨taken, htext, hgoes⟩ := exists_text_scanRun hrun
      -- the character that is given back is not part of the text
      cases hunread : s₁.unread with
      | error e => simp only [hunread, Except.map]
      | ok s₂ =>
        have htext₂ : s₂.text = s₁.text := by
          unfold unread at hunread
          cases hcursor : s₁.cursor.unread with
          | error e => rw [hcursor] at hunread; cases hunread
          | ok cursor =>
            rw [hcursor] at hunread
            cases hunread
            rfl
        simp only [hunread, Except.map]
        rw [htext₂, htext, h taken hgoes]

/-- If the parser accepts the texts of numbers, no number that is scanned is refused. -/
theorem scanWith_eq_scan {parse? : List Char → Option Float}
    (hparse : ∀ text, IsNumberText text → parse? text = some (Decimal.readLiteral text))
    (s : TokenStream σ) : s.scanWith parse? = s.scan := by
  cases hskip : s.skipSpaces with
  | mk r s₁ =>
    cases r with
    | error e => simp only [scanWith, scan, hskip]
    | ok c =>
      simp only [scanWith, scan, hskip, scanFromWith, scanFrom]
      -- only numbers are parsed, so only they could differ
      cases hsymbol : Token.ofSymbol? c with
      | some t => rfl
      | none =>
        by_cases hd : c.isDigit
        · simp only [if_pos hd]
          apply scanOperand_congr
          intro taken hgoes
          have hnumber : IsNumberText (c :: taken) := isNumberText_cons_iff.2 ⟨hd, hgoes⟩
          show numberToken parse? (c :: taken) = .number (Decimal.readLiteral (c :: taken))
          rw [numberToken, hparse _ hnumber]
        · simp only [if_neg hd]

/-! ### Reading token after token -/

/-- The tokens that are read one after the other, as they are reported by the stream. -/
inductive Reads (read : Reader σ) : TokenStream σ → List Reading → TokenStream σ → Prop
  | nil (s : TokenStream σ) : Reads read s [] s
  | cons {s s' s'' : TokenStream σ} {t : Token} {rs : List Reading}
      (hread : read s = .ok (.ok t, s')) (h : Reads read s' rs s'') :
      Reads read s (⟨t, s'.text, s'.position⟩ :: rs) s''

/-- A way to read that agrees with cutting off lexemes reads the lexemes of the line. -/
theorem reads_acceptAll {read : Reader σ}
    (hread : ∀ s : TokenStream σ, s.cursor.Terminated → read s = .ok s.next)
    {s : TokenStream σ} (hs : s.cursor.Terminated) {ls : List Lexeme}
    (h : Lexeme.line s.cursor.rest = ls) :
    Reads read s (readings s.position ls) (s.acceptAll ls) := by
  induction ls generalizing s with
  | nil => exact .nil s
  | cons l ls ih =>
    -- by the first lexeme, which the induction on `ls` has to agree with
    cases hnext : Lexeme.next? s.cursor.rest with
    | none =>
      rw [Lexeme.line_of_none hnext] at h
      cases h
    | some p =>
      obtain ⟨l', rest⟩ := p
      have hwritten := (Lexeme.written_append_of_next? hnext).symm
      have hcursor := LineCursor.forward_of_append hwritten (Lexeme.length_written l').symm
        (!gaveBack l'.token)
      have hstep : read s = .ok (.ok l'.token, s.accept l') := by
        rw [hread s hs, next_of_next? hnext]
      have hposition : (s.accept l').position = s.position + l'.size := by
        rw [accept_eq, position, hcursor, position, LineCursor.position, LineCursor.position,
          List.length_append, List.length_reverse, Lexeme.length_written]
        omega
      have htext : (s.accept l').text = l'.text := rfl
      have hrest : (s.accept l').cursor.rest = rest := by
        rw [accept_eq, hcursor]
      have hs' : (s.accept l').cursor.Terminated := by
        rw [accept_eq, hcursor]
        exact hs.of_append hwritten
      rw [Lexeme.line_of_some hnext] at h
      rw [readings, acceptAll, List.foldl_cons]
      split at h
      · -- the end of the line is the last lexeme
        cases h
        have hlast := Reads.cons hstep (.nil _)
        rwa [htext, hposition] at hlast
      · obtain ⟨rfl, hls⟩ := List.cons.inj h
        have hreads := Reads.cons hstep (ih hs' (hrest ▸ hls))
        rwa [htext, hposition] at hreads

omit [LineSource σ] in
/-- The line that is pulled is read as if it had been in the buffer. -/
theorem reads_of_read_eq {read : Reader σ} {s s₀ s' : TokenStream σ} {rs : List Reading}
    (heq : read s = read s₀) (hne : rs ≠ []) (h : Reads read s₀ rs s') : Reads read s rs s' := by
  cases h with
  | nil => exact absurd rfl hne
  | cons hread h => exact .cons (heq.trans hread) h

/-! ### The tokens of a line -/

/-- There is one way only to cut a line, and it is the way in which its tokens are read, also when
    they are scanned with a parser of literals that knows all numbers.  No character but the spaces
    is missing in the texts; each text ends where the stream then stands; and no character that is
    refused is a digit, so no number is. -/
theorem reads_longest_lexemes {s : TokenStream σ} {line : List Char} {source : σ}
    {parse? : List Char → Option Float} (hrest : s.cursor.rest = [])
    (hread : LineSource.readLine s.source = (.line line, source)) (hexit : s.exitWord ≠ some line)
    (hline : '\n' ∉ line)
    (hparse : ∀ text, IsNumberText text → parse? text = some (Decimal.readLiteral text)) :
    ∃ rs stream, (∀ rs', Cuts 0 (line ++ ['\n']) rs' ↔ rs' = rs) ∧
      Reads (fun s => .ok s.next) s rs stream ∧ Reads (scanWith parse?) s rs stream ∧
      rs.flatMap Reading.text = line.filter (· ≠ ' ') ++ ['\n'] ∧
      (∀ r ∈ rs, ∃ before after, line ++ ['\n'] = before ++ r.text ++ after ∧
        r.stop = (before ++ r.text).length) ∧
      (∀ r ∈ rs, ∀ c, r.token = .invalid c → r.text = [c] ∧ c.isDigit = false) ∧
      stream.currentLine = line ++ ['\n'] ∧ stream.cursor.rest = [] := by
  let s₀ : TokenStream σ := { s with source, cursor := LineCursor.load line }
  let ls := Lexeme.line (line ++ ['\n'])
  have hfill : s.fill = (.ok (), s₀) := fill_of_readLine hrest hread hexit
  have hs : s.cursor.Terminated := LineCursor.terminated_of_rest_eq_nil hrest
  have hs₀ : s₀.cursor.Terminated := LineCursor.terminated_load line
  have hcuts : Cuts 0 (line ++ ['\n']) (readings 0 ls) :=
    Lexeme.cuts_readings (List.mem_append_right _ List.mem_cons_self) 0
  -- the end of the line is a lexeme, so nothing is left behind the lexemes
  obtain ⟨gap, hls, hwritten⟩ := Lexeme.exists_line_append_newline line hline
  have hload : s₀.cursor.rest = ls.flatMap Lexeme.written ++ [] := by
    have hlexemes : ls = Lexeme.line line ++ [⟨gap, ['\n'], .endOfLine⟩] := hls []
    have hend : Lexeme.written ⟨gap, ['\n'], .endOfLine⟩ = List.replicate gap ' ' ++ ['\n'] := rfl
    show line ++ ['\n'] = ls.flatMap Lexeme.written ++ []
    rw [hlexemes, List.flatMap_append, List.flatMap_singleton, hend, List.append_nil,
      ← List.append_assoc, hwritten]
  -- every way to scan that agrees with `scan` reads the same tokens
  have hreads : ∀ read : Reader σ,
      (∀ s : TokenStream σ, s.cursor.Terminated → read s = s.scan) →
      Reads read s (readings 0 ls) (s₀.acceptAll ls) := by
    intro read heq
    have hall : Reads read s₀ (readings s₀.position ls) (s₀.acceptAll ls) :=
      reads_acceptAll (fun s hs => (heq s hs).trans (scan_eq_next hs)) hs₀ rfl
    have hfirst : read s = read s₀ := by
      rw [heq s hs, heq s₀ hs₀, scan_of_fill_ok hfill]
    exact reads_of_read_eq hfirst hcuts.ne_nil hall
  refine ⟨readings 0 ls, s₀.acceptAll ls, ?_, ?_, ?_, ?_, ?_, ?_, ?_, ?_⟩
  · intro rs'
    constructor
    · exact fun h => h.unique hcuts
    · rintro rfl
      exact hcuts
  · exact hreads _ fun s hs => (scan_eq_next hs).symm
  · exact hreads _ fun s _ => scanWith_eq_scan hparse s
  · rw [Lexeme.flatMap_text_readings, Lexeme.flatMap_text_line hline]
  · intro r hr
    obtain ⟨before, after, happend, hstop⟩ := hcuts.exists_append hr
    exact ⟨before, after, happend, by rw [hstop, Nat.zero_add]⟩
  · exact fun r hr c ht => hcuts.of_invalid hr ht
  · rw [acceptAll_eq hload, currentLine, LineCursor.line]
    have hfront : s₀.cursor.consumed = [] := rfl
    simp only [hfront, List.append_nil, List.reverse_reverse]
    rw [← List.append_nil (ls.flatMap Lexeme.written), ← hload]
    rfl
  · rw [acceptAll_eq hload]

/-- The line ` 1.5.x~` is read as the number `1.5`, a stray point, the name `x` and a negation. -/
theorem reads_point_behind_number :
    ∃ stream, Reads (scanWith fun text => some (Decimal.readLiteral text))
      (TokenStream.new (⟨[[' ', '1', '.', '5', '.', 'x', '~']]⟩ : LineQueue) none)
      [⟨.number (Decimal.readLiteral ['1', '.', '5']), ['1', '.', '5'], 4⟩,
        ⟨.invalid '.', ['.'], 5⟩, ⟨.name "x", ['x'], 6⟩, ⟨.negate, ['~'], 7⟩,
        ⟨.endOfLine, ['\n'], 8⟩] stream := by
  let s : TokenStream LineQueue := TokenStream.new ⟨[[' ', '1', '.', '5', '.', 'x', '~']]⟩ none
  let parse? : List Char → Option Float := fun text => some (Decimal.readLiteral text)
  have hexit : s.exitWord ≠ some [' ', '1', '.', '5', '.', 'x', '~'] := by
    simp [s, TokenStream.new]
  have hparse : ∀ text, IsNumberText text → parse? text = some (Decimal.readLiteral text) :=
    fun _ _ => rfl
  obtain ⟨rs, stream, hcuts, -, hscan, -⟩ :=
    reads_longest_lexemes (s := s) rfl rfl hexit (by decide) hparse
  have hlexemes : Lexeme.line ([' ', '1', '.', '5', '.', 'x', '~'] ++ ['\n']) =
      [⟨1, ['1', '.', '5'], .number (Decimal.readLiteral ['1', '.', '5'])⟩,
        ⟨0, ['.'], .invalid '.'⟩, ⟨0, ['x'], .name "x"⟩, ⟨0, ['~'], .negate⟩,
        ⟨0, ['\n'], .endOfLine⟩] := by
    rw [Lexeme.line_of_some rfl, if_neg (by simp), Lexeme.line_of_some rfl, if_neg (by simp),
      Lexeme.line_of_some rfl, if_neg (by simp), Lexeme.line_of_some rfl, if_neg (by simp),
      Lexeme.line_of_some rfl, if_pos rfl]
    rfl
  -- the readings are the only way to cut the line, and so are those of `readings`
  have hrs := (hcuts _).1 (Lexeme.cuts_readings (List.mem_append_right _ List.mem_cons_self) 0)
  rw [hlexemes] at hrs
  subst hrs
  exact ⟨stream, hscan⟩

end TokenStream

end DeskCalc
