import DeskCalc.Proofs.Wrapping
import DeskCalc.Proofs.DeskInvariants
import DeskCalc.Proofs.LongestMatch
import DeskCalc.Proofs.Tracing

/-!
# The characters of steps

The steps of an evaluation are made of names, which are letters and digits, of values, which are
written in ASCII, and of a few signs.  So there is no variation selector in any step of a desk,
whatever has been done to it, and the notes of an entry fit into the panel once they are wrapped.

## Key results

- `isAscii_valueChars`: values are written in ASCII
- `Lexeme.isStepText_of_mem_line`: names are letters and digits
- `Desk.hasStepTexts_after`: what the steps of a desk are made of
- `HistoryEntry.width_le_of_mem_stepRows`: the rows of the steps fit into the panel
-/

namespace DeskCalc

/-! ## Values -/

namespace Decimal

/-- All characters are in ASCII. -/
def IsAscii (cs : List Char) : Prop := ∀ c ∈ cs, c.toNat < 128

/-- The empty text is in ASCII. -/
private theorem isAscii_nil : IsAscii [] := fun _ h => absurd h List.not_mem_nil

/-- A character in ASCII may be put in front. -/
private theorem IsAscii.cons {c : Char} {cs : List Char} (hc : c.toNat < 128) (h : IsAscii cs) :
    IsAscii (c :: cs) := List.forall_mem_cons.2 ⟨hc, h⟩

/-- Two texts in ASCII make one. -/
private theorem IsAscii.append {cs ds : List Char} (h : IsAscii cs) (h' : IsAscii ds) :
    IsAscii (cs ++ ds) := List.forall_mem_append.2 ⟨h, h'⟩

/-- Part of a text in ASCII is in ASCII. -/
private theorem IsAscii.of_subset {cs ds : List Char} (h : IsAscii ds) (hsub : cs ⊆ ds) :
    IsAscii cs :=
  fun c hc => h c (hsub hc)

/-- A closed text is in ASCII if a run through its characters says so. -/
theorem isAscii_of_all {cs : List Char} (h : (cs.all fun c => c.toNat < 128) = true) :
    IsAscii cs := fun c hc => of_decide_eq_true (List.all_eq_true.1 h c hc)

/-- A repeated character in ASCII is a text in ASCII. -/
private theorem isAscii_replicate {c : Char} (hc : c.toNat < 128) (n : Nat) :
    IsAscii (List.replicate n c) := fun _ h => List.eq_of_mem_replicate h ▸ hc

/-- Digits are in ASCII. -/
theorem toNat_lt_of_isDigit {c : Char} (h : c.isDigit = true) : c.toNat < 128 := by
  simp only [Char.isDigit, Bool.and_eq_true, decide_eq_true_eq] at h
  have hle : c.toNat ≤ 0x39 := UInt32.le_iff_toNat_le.1 h.2
  omega

/-- Digits of a number are in ASCII. -/
private theorem isAscii_digitChars (n : Nat) : IsAscii (digitChars n) := fun _ h =>
  toNat_lt_of_isDigit (Nat.isDigit_of_mem_toDigits (by decide) (by decide) h)

/-- The digits on both sides of the point are in ASCII. -/
private theorem isAscii_splitAtPoint (d : Decimal) :
    IsAscii (splitAtPoint d).1 ∧ IsAscii (splitAtPoint d).2 := by
  have hdigits := isAscii_digitChars d.digits
  have hzeros : ∀ n, IsAscii (List.replicate n '0') := isAscii_replicate (by decide)
  unfold splitAtPoint
  dsimp only
  -- the point stands in front of the digits, behind them, or among them
  split
  · exact ⟨isAscii_nil.cons (by decide), (hzeros _).append hdigits⟩
  · split
    · exact ⟨hdigits.append (hzeros _), isAscii_nil⟩
    · exact ⟨hdigits.of_subset (List.take_subset _ _), hdigits.of_subset (List.drop_subset _ _)⟩

/-- Plain notation is in ASCII. -/
private theorem isAscii_pointed (d : Decimal) : IsAscii (pointed d) := by
  obtain ⟨hwhole, hfraction⟩ := isAscii_splitAtPoint d
  unfold pointed
  split
  · next heq =>
    rw [heq] at hwhole
    exact hwhole.append (isAscii_of_all (by decide))
  · next heq =>
    rw [heq] at hwhole hfraction
    exact hwhole.append (hfraction.cons (by decide))

/-- Exponents are in ASCII. -/
private theorem isAscii_exponentChars (e : Int) : IsAscii (exponentChars e) := by
  unfold exponentChars
  split
  · exact (isAscii_digitChars _).cons (by decide)
  · exact isAscii_digitChars _

/-- Scientific notation is in ASCII. -/
private theorem isAscii_scientific (d : Decimal) : IsAscii (scientific d) := by
  have hdigits := isAscii_digitChars d.digits
  have hfraction : IsAscii (if (digitChars d.digits).length = 1 then ['0']
      else (digitChars d.digits).drop 1) := by
    split
    · exact isAscii_of_all (by decide)
    · exact hdigits.of_subset (List.drop_subset _ _)
  have hmark : ∀ e, IsAscii ('E' :: exponentChars e) := fun e =>
    (isAscii_exponentChars e).cons (by decide)
  unfold scientific
  dsimp only
  exact ((hdigits.of_subset (List.take_subset _ _)).append (hfraction.cons (by decide))).append
    (hmark _)

/-- Signs are in ASCII. -/
private theorem isAscii_signChars (x : Float) : IsAscii (signChars x) := by
  unfold signChars
  split
  · exact isAscii_of_all (by decide)
  · exact isAscii_nil

/-- Values are written in ASCII. -/
theorem isAscii_valueChars (x : Float) : IsAscii (valueChars x) := by
  unfold valueChars
  -- `NaN`, infinity, and then the two notations
  split
  · exact isAscii_of_all (by decide)
  · split
    · exact (isAscii_signChars x).append (isAscii_of_all (by decide))
    · refine (isAscii_signChars x).append ?_
      split
      · exact isAscii_pointed _
      · exact isAscii_scientific _

/-- The text of a value is in ASCII. -/
theorem isAscii_valueText (x : Float) : IsAscii (valueText x).toList := by
  rw [valueText, String.toList_ofList]
  exact isAscii_valueChars x

/-- A time with a fixed number of decimals is in ASCII. -/
theorem isAscii_fixedText (places : Nat) (x : Float) : IsAscii (fixedText places x).toList := by
  unfold fixedText
  dsimp only
  rw [String.toList_ofList]
  -- whatever the scaled number is, its digits are padded and cut
  generalize Binary64.roundQuotient _ _ = scaled
  have hpadded : IsAscii (List.replicate (places + 1 - (digitChars scaled).length) '0' ++
      digitChars scaled) :=
    (isAscii_replicate (by decide) _).append (isAscii_digitChars scaled)
  exact (hpadded.of_subset (List.take_subset _ _)).append
    ((hpadded.of_subset (List.drop_subset _ _)).cons (by decide))

end Decimal

open Decimal (IsAscii isAscii_of_all)

/-! ## Steps -/

/-- A character of a step: a letter, or one in ASCII. -/
def IsStepChar (c : Char) : Prop := c.toNat < 128 ∨ Text.isAlphabetic c = true

/-- A text that can be part of a step. -/
def IsStepText (s : String) : Prop := ∀ c ∈ s.toList, IsStepChar c

/-- Parts of a step make a step. -/
private theorem IsStepText.append {s t : String} (hs : IsStepText s) (ht : IsStepText t) :
    IsStepText (s ++ t) := by
  unfold IsStepText
  rw [String.toList_append]
  exact List.forall_mem_append.2 ⟨hs, ht⟩

/-- A text in ASCII can be part of a step. -/
private theorem isStepText_of_isAscii {s : String} (h : IsAscii s.toList) : IsStepText s :=
  fun c hc => .inl (h c hc)

/-- The text of a value can be part of a step. -/
theorem isStepText_valueText (x : Float) : IsStepText (Decimal.valueText x) :=
  isStepText_of_isAscii (Decimal.isAscii_valueText x)

/-- Names are letters and digits. -/
theorem Lexeme.isStepText_of_mem_line {cs : List Char} {l : Lexeme} (hl : l ∈ line cs) {n : String}
    (hn : l.token = .name n) : IsStepText n := by
  obtain ⟨cs', -, hmunch, -⟩ := munch_of_next? (standalone_of_mem_line hl)
  have hname : Munch cs' (.name n) l.text := hn ▸ hmunch
  -- the token of `Munch` is a variable for `cases`, its equation is kept
  generalize l.text = text, htoken : Token.name n = token at hname
  cases hname with
  | number => cases htoken
  | name hc hlongest =>
    obtain ⟨first, more, htext, hfirst, hmore⟩ := hlongest.kind
    rw [Token.name.inj htoken, IsStepText, String.toList_ofList, htext]
    refine List.forall_mem_cons.2 ⟨.inr hfirst, fun c hc => ?_⟩
    rcases hmore c hc with hletter | hdigit
    · exact .inr hletter
    · exact .inl (Decimal.toNat_lt_of_isDigit hdigit)
  | @other c =>
    -- a single character is no name
    unfold Token.ofSymbol? at htoken
    split at htoken
    all_goals cases htoken

/-- The names among tokens. -/
def NamesAreStepTexts (ts : List Token) : Prop := ∀ n, .name n ∈ ts → IsStepText n

/-- The names of a line can be part of a step. -/
private theorem namesAreStepTexts_lineTokens {line : List Char} (h : '\n' ∉ line) :
    NamesAreStepTexts (lineTokens line) := by
  intro n hn
  rw [lineTokens_eq h] at hn
  obtain ⟨l, hl, htoken⟩ := List.mem_map.1 hn
  exact Lexeme.isStepText_of_mem_line hl htoken

/-- A sign can be part of a step if a run through its characters says so. -/
private theorem isStepText_of_all {s : String} (h : (s.toList.all fun c => c.toNat < 128) = true) :
    IsStepText s := isStepText_of_isAscii (isAscii_of_all h)

/-- A step is made of a name or of values, and of signs. -/
private theorem isStepText_of_step? {t : SymbolTable} {vs : List Float} {token : Token} {s : Step}
    (hn : ∀ n, token = .name n → IsStepText n) (h : token.step? t vs = some s) :
    IsStepText s.operation := by
  -- a name, the negation, the binary operators; no other token makes a step
  unfold Token.step? at h
  split at h
  · next n => cases h; exact hn n rfl
  · cases h
    have hsign : IsStepText "~ " := isStepText_of_all (by decide)
    exact hsign.append (isStepText_valueText _)
  · next op =>
    cases h
    have hspace : IsStepText " " := isStepText_of_all (by decide)
    have hsymbol : IsStepText op.symbol.toString := by
      cases op <;> exact isStepText_of_all (by decide)
    exact ((((isStepText_valueText _).append hspace).append hsymbol).append hspace).append
      (isStepText_valueText _)
  · cases h

/-- The steps of tokens one after the other are made of names, values and signs. -/
private theorem isStepText_of_mem_stepsOf {t : SymbolTable} {ts : List Token}
    (hts : NamesAreStepTexts ts)
    {vs : List Float} {s : Step} (h : s ∈ stepsOf t vs ts) : IsStepText s.operation := by
  induction ts generalizing vs with
  | nil => cases h
  | cons token ts ih =>
    -- the step of the first token, or one of the others
    rcases List.mem_append.1 h with h | h
    · exact isStepText_of_step? (fun n hn => hts n (hn ▸ List.mem_cons_self))
        (Option.mem_toList.1 h)
    · exact ih (fun n hn => hts n (List.mem_cons_of_mem _ hn)) h

/-- The target of a line is one of its names, or `it`. -/
private theorem isStepText_targetOf {p : List Token} (hp : NamesAreStepTexts p) :
    IsStepText (targetOf p) := by
  unfold targetOf
  split
  · exact hp _ List.mem_cons_self
  · exact isStepText_of_all (by decide)

/-- The step of an assignment is made of its target, a sign and a value. -/
private theorem isStepText_of_mem_finalSteps {target : String} (htarget : IsStepText target)
    {vs : List Float} {token : Token} {s : Step} (h : s ∈ token.finalSteps target vs) :
    IsStepText s.operation := by
  unfold Token.finalSteps at h
  split at h
  · rw [List.mem_singleton.1 h]
    have hsign : IsStepText " = " := isStepText_of_all (by decide)
    exact (htarget.append hsign).append (isStepText_valueText _)
  · cases h

/-- The steps of an evaluation. -/
theorem Calculator.isStepText_of_mem_steps {σ : Type} [LineSource σ] {c : Calculator σ}
    (hc : c.stream.cursor.Terminated) {detailed : Bool} {s : Step}
    (h : s ∈ (c.evaluate detailed).1.steps) : IsStepText s.operation := by
  rcases input_error_or_verdict hc detailed with
    ⟨e, stream, herror⟩ | ⟨hnewline, p, t, q, state, stream, o, happend, hverdict⟩
  · rw [herror] at h
    cases h
  · rw [hverdict.steps_evaluate hc] at h
    split at h
    · -- the tokens that are taken are those of the line
      have hp : NamesAreStepTexts p := fun n hn => by
        have hmem : Token.name n ∈ lineTokens c.nextLine ++ [.endOfLine] :=
          happend ▸ List.mem_append_left _ hn
        exact namesAreStepTexts_lineTokens hnewline n (by simpa using hmem)
      rcases List.mem_append.1 h with h | h
      · exact isStepText_of_mem_stepsOf hp h
      · exact isStepText_of_mem_finalSteps (isStepText_targetOf hp) h
    · cases h

/-! ## The steps of a desk -/

namespace Desk

/-- All steps in the history are made of letters and of characters in ASCII. -/
def HasStepTexts (d : Desk) : Prop := ∀ e ∈ d.history, ∀ s ∈ e.steps, IsStepText s.operation

/-- An entry with such steps may be added to the history. -/
private theorem HasStepTexts.append {d d' : Desk} (h : d.HasStepTexts) {e : HistoryEntry}
    (hhistory : d'.history = d.history ++ [e]) (he : ∀ s ∈ e.steps, IsStepText s.operation) :
    d'.HasStepTexts := by
  unfold HasStepTexts
  rw [hhistory]
  exact List.forall_mem_append.2 ⟨h, by simpa using he⟩

/-- The entry of an evaluation has its steps. -/
private theorem HasStepTexts.evaluate {d : Desk} (h : d.HasStepTexts) (hd : d.Coherent)
    (expression : List Char) (detailed : Bool) (elapsed : Nat) :
    (d.evaluate expression detailed elapsed).HasStepTexts := by
  have hterminated := (hd.inUse.withSource (d.calculator.source.push expression)).terminated
  have hsteps := fun s => @Calculator.isStepText_of_mem_steps _ _ _ hterminated detailed s
  unfold Desk.evaluate
  dsimp only
  split
  · exact h.append rfl hsteps
  · exact h.append rfl hsteps
  · exact h

/-- Submitting keeps the steps in the history as they should be. -/
private theorem HasStepTexts.submit {d : Desk} (h : d.HasStepTexts) (hd : d.Coherent)
    (elapsed : Nat) :
    (d.submit elapsed).HasStepTexts := by
  have hsubmit := d.submit_eq elapsed
  -- an empty line, the exit word, `clear` and `help` add no entry
  split at hsubmit
  · rwa [hsubmit]
  · rw [hsubmit]
    exact h
  · rw [hsubmit]
    exact fun e he => absurd he List.not_mem_nil
  · rw [hsubmit]
    exact h
  · obtain ⟨-, -, hsubmit⟩ := hsubmit
    rw [hsubmit]
    exact h.evaluate hd _ _ elapsed

/-- Typing an end of line adds no entry. -/
theorem history_newline (d : Desk) (elapsed : Nat) :
    (d.act elapsed (.handle (.press (.char '\n') false))).history = d.history := by
  show (if d.helpShown then d else d.edit fun f => f.insert '\n').history = d.history
  split <;> rfl

/-- Only submitting adds an entry. -/
private theorem HasStepTexts.act {d : Desk} (h : d.HasStepTexts) (hd : d.Coherent) (elapsed : Nat)
    (a : Action) : (d.act elapsed a).HasStepTexts := by
  by_cases ha : a = .handle (.press (.char '\n') false)
  · unfold HasStepTexts
    rwa [ha, d.history_newline elapsed]
  · rcases d.submissions_cases elapsed ha with ⟨-, hbooks⟩ | ⟨-, hact⟩
    · unfold HasStepTexts
      rwa [hbooks.history]
    · rw [hact]
      exact h.submit hd elapsed

/-- Whatever has been done to a new desk, its steps are made of letters and of characters in
    ASCII. -/
theorem hasStepTexts_after (w : List Char) (acts : List (Nat × Action)) :
    ((Desk.new w).after acts).HasStepTexts := by
  induction acts using List.reverseRecOn with
  | nil => exact fun e he => absurd he List.not_mem_nil
  | append_singleton acts act ih =>
    have hafter : (Desk.new w).after (acts ++ [act]) =
        ((Desk.new w).after acts).act act.1 act.2 := List.foldl_concat ..
    rw [hafter]
    exact ih.act (coherent_after w acts) act.1 act.2

end Desk

/-! ## The rows of the steps -/

/-- The variation selector is neither in ASCII nor a letter, so it is in no step. -/
private theorem IsStepText.emojiSelector_not_mem {s : String} (h : IsStepText s) :
    Text.emojiSelector ∉ s.toList := fun hmem => by
  rcases h _ hmem with hascii | hletter
  · exact absurd hascii (by decide)
  · have hno : Text.isAlphabetic Text.emojiSelector = false := by decide +kernel
    rw [hno] at hletter
    cases hletter

namespace HistoryEntry

/-- The notes of an entry are made of the characters of steps. -/
private theorem isStepText_of_mem_notes {e : HistoryEntry}
    (h : ∀ s ∈ e.steps, IsStepText s.operation)
    {note : String × Screen.Color} (hnote : note ∈ e.notes) : IsStepText note.1 := by
  unfold notes at hnote
  -- the numbered steps, and then the time that was taken
  rcases List.mem_append.1 hnote with hnote | hnote
  · obtain ⟨i, hi, rfl⟩ := List.mem_mapIdx.1 hnote
    have hnumber : IsStepText (toString (i + 1)) := by
      refine isStepText_of_isAscii ?_
      rw [show toString (i + 1) = String.ofList (Decimal.digitChars (i + 1)) from rfl,
        String.toList_ofList]
      exact Decimal.isAscii_digitChars _
    have hdot : IsStepText ". " := isStepText_of_all (by decide)
    have hsign : IsStepText " = " := isStepText_of_all (by decide)
    exact (((hnumber.append hdot).append (h _ (List.getElem_mem hi))).append hsign).append
      (isStepText_valueText _)
  · rw [List.mem_singleton.1 hnote]
    have htook : IsStepText "took " := isStepText_of_all (by decide)
    have hunit : IsStepText " ms" := isStepText_of_all (by decide)
    exact (htook.append (isStepText_of_isAscii (Decimal.isAscii_fixedText _ _))).append hunit

/-- The indent adds its columns to those of a line. -/
private theorem width_stepIndent_append_le (line : List Char) :
    Text.width (stepIndent ++ line) ≤ stepIndent.length + Text.width line := by
  have hspace : ∀ cs, Text.width (' ' :: cs) ≤ 0 + (1 + Text.width cs) := fun cs =>
    (Text.extent_space_wider cs).columns
  show Text.width (' ' :: ' ' :: ' ' :: ' ' :: line) ≤ 4 + Text.width line
  -- the indent is four spaces, each of which adds a column at most
  have h₁ := hspace line
  have h₂ := hspace (' ' :: line)
  have h₃ := hspace (' ' :: ' ' :: line)
  have h₄ := hspace (' ' :: ' ' :: ' ' :: line)
  omega

/-- The rows of the steps fit into a panel behind their indent. -/
theorem width_le_of_mem_stepRows {e : HistoryEntry} (h : ∀ s ∈ e.steps, IsStepText s.operation)
    {room : Nat} (hroom : stepIndent.length + 3 ≤ room) {row : Screen.Row}
    (hrow : row ∈ e.stepRows (room - stepIndent.length)) :
    ∃ text style, row = [⟨text, style⟩] ∧ Text.width text ≤ room := by
  unfold stepRows at hrow
  split at hrow
  · obtain ⟨note, hnote, hrow⟩ := List.mem_flatMap.1 hrow
    obtain ⟨line, hline, rfl⟩ := List.mem_map.1 hrow
    have hfits : Text.width line ≤ room - stepIndent.length :=
      Text.width_le_of_mem_wrap (by omega) (isStepText_of_mem_notes h hnote).emojiSelector_not_mem
        (fun c _ => (Text.charWidth_le c).trans (by omega)) line hline
    refine ⟨stepIndent ++ line, _, rfl, ?_⟩
    have hindent := width_stepIndent_append_le line
    omega
  · cases hrow

end HistoryEntry

end DeskCalc
