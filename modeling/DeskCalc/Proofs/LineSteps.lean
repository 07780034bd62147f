import DeskCalc.Line
import DeskCalc.Proofs.Bindings

/-!
# The steps of a line

What one token can do to a line, as relations with one constructor for each case: `Step` for the
tokens that are taken, `Refuses` for those that are not.  `Takes` chains steps, and `Decides` says
which tokens end a line and with what outcome.

## Key results

- `Step.step_eq`, `Refuses.step_eq`, `step_or_refuses`: the relations describe the step function
  exactly
- `Takes.run_of_decides`: a run ends at the token that decides the line
- `exists_decides`: a run takes tokens up to one that decides the line
-/

namespace DeskCalc

/-- The phase behind an operand; `first` is the phase behind the first one. -/
def Phase.behind (p first : Phase) : Phase :=
  match p with
  | .start => first
  | _ => .inside

namespace LineState

/-! ## Steps -/

/-- A line takes a token. -/
inductive Step (s : LineState) : Token → LineState → Prop
  | number (x : Float) :
      Step s (.number x) { s.pushNumber x with phase := s.phase.behind .afterNumber }
  | name (n : String) :
      Step s (.name n) { s.pushName n with phase := s.phase.behind (.afterName n) }
  | negate {v : Float} {below : List Float} (hphase : s.phase ≠ .start)
      (hstack : s.stack.values = v :: below) :
      Step s .negate { s with
        phase := .inside
        stack := ⟨-v :: below⟩
        trace := s.trace.add ("~ " ++ Decimal.valueText (- -v)) (-v) }
  | combine {right left : Float} {below : List Float} (op : BinaryOp) (hphase : s.phase ≠ .start)
      (hstack : s.stack.values = right :: left :: below) :
      Step s (.binary op) { s with
        phase := .inside
        stack := ⟨op.apply left right :: below⟩
        trace := s.trace.add (Decimal.valueText left ++ " " ++ op.symbol.toString ++ " "
          ++ Decimal.valueText right) (op.apply left right) }
  | assign (n : String) (hphase : s.phase = .afterName n) : Step s .assign (s.retarget n)

/-- A line refuses a token, the end of the line apart. -/
inductive Refuses (s : LineState) : Token → Rejection → Prop
  | lexical (c : Char) : Refuses s (.invalid c) (.lexical c)
  | negateFirst (hphase : s.phase = .start) :
      Refuses s .negate (.unexpected .negate s.phase.describe)
  | combineFirst (op : BinaryOp) (hphase : s.phase = .start) :
      Refuses s (.binary op) (.unexpected (.binary op) s.phase.describe)
  | assign (hphase : ∀ n, s.phase ≠ .afterName n) :
      Refuses s .assign (.unexpected .assign s.phase.describe)
  | negate (hphase : s.phase ≠ .start) (hstack : s.stack.values = []) :
      Refuses s .negate (.underflow '~' 1 0)
  | combine (op : BinaryOp) (hphase : s.phase ≠ .start) (hstack : s.stack.size < 2) :
      Refuses s (.binary op) (.underflow op.symbol 2 s.stack.size)

/-- Behind the first token, a negation goes to the stack. -/
private theorem step_negate {s : LineState} (h : s.phase ≠ .start) : s.step .negate = s.negate := by
  cases hp : s.phase <;> simp_all [step]

/-- Behind the first token, an operator goes to the stack. -/
private theorem step_binary {s : LineState} (op : BinaryOp) (h : s.phase ≠ .start) :
    s.step (.binary op) = s.combine op := by
  cases hp : s.phase <;> simp_all [step]

/-- `Step` says what the step function does with a token that is taken. -/
theorem Step.step_eq {s s' : LineState} {t : Token} (h : Step s t s') : s.step t = .ok s' := by
  cases h with
  | number x => cases hp : s.phase <;> simp [step, hp, Phase.behind]
  | name n => cases hp : s.phase <;> simp [step, hp, Phase.behind]
  | negate hphase hstack =>
    rw [step_negate hphase, LineState.negate, OperandStack.negateTop, hstack]
    rfl
  | combine op hphase hstack =>
    rw [step_binary op hphase, LineState.combine, OperandStack.combine, hstack]
    rfl
  | assign n hphase => simp [step, hphase]

/-- `Refuses` says with which rejection the step function answers. -/
theorem Refuses.step_eq {s : LineState} {t : Token} {r : Rejection} (h : Refuses s t r) :
    s.step t = .error r := by
  cases h with
  | lexical c => cases hp : s.phase <;> simp [step, hp, refuse]
  | negateFirst hphase => simp [step, hphase, refuse]
  | combineFirst op hphase => simp [step, hphase, refuse]
  | assign hphase => cases hp : s.phase <;> simp_all [step, refuse]
  | negate hphase hstack =>
    rw [step_negate hphase, LineState.negate, OperandStack.negateTop, hstack]
    rfl
  | combine op hphase hstack =>
    rw [step_binary op hphase, LineState.combine, OperandStack.combine]
    unfold OperandStack.size at hstack
    -- two operands would be enough
    match hvalues : s.stack.values with
    | [] => rfl
    | [v] => rfl
    | right :: left :: below =>
      rw [hvalues, List.length_cons, List.length_cons] at hstack
      omega

/-- A token is refused because of the phase and the operands, and of nothing else. -/
theorem Refuses.congr {s s' : LineState} {t : Token} {r : Rejection} (h : Refuses s t r)
    (hphase : s'.phase = s.phase) (hstack : s'.stack = s.stack) : Refuses s' t r := by
  obtain ⟨phase, stack, target, symbols, trace⟩ := s
  obtain ⟨phase', stack', target', symbols', trace'⟩ := s'
  -- the target, the variables and the trace are left apart
  obtain rfl : phase' = phase := hphase
  obtain rfl : stack' = stack := hstack
  cases h with
  | lexical c => exact .lexical c
  | negateFirst hphase => exact .negateFirst hphase
  | combineFirst op hphase => exact .combineFirst op hphase
  | assign hphase => exact .assign hphase
  | negate hphase hstack => exact .negate hphase hstack
  | combine op hphase hstack => exact .combine op hphase hstack

/-- A token other than the end of the line is taken or refused. -/
theorem step_or_refuses (s : LineState) {t : Token} (ht : t ≠ .endOfLine) :
    (∃ s', Step s t s') ∨ ∃ r, Refuses s t r := by
  -- the phase decides, and for an operator the operands that are waiting
  cases t with
  | endOfLine => exact absurd rfl ht
  | number x => exact Or.inl ⟨_, .number x⟩
  | name n => exact Or.inl ⟨_, .name n⟩
  | invalid c => exact Or.inr ⟨_, .lexical c⟩
  | negate =>
    by_cases hp : s.phase = .start
    · exact Or.inr ⟨_, .negateFirst hp⟩
    · cases hstack : s.stack.values with
      | nil => exact Or.inr ⟨_, .negate hp hstack⟩
      | cons v below => exact Or.inl ⟨_, .negate hp hstack⟩
  | binary op =>
    by_cases hp : s.phase = .start
    · exact Or.inr ⟨_, .combineFirst op hp⟩
    · match hstack : s.stack.values with
      | [] => exact Or.inr ⟨_, .combine op hp (by simp [OperandStack.size, hstack])⟩
      | [v] => exact Or.inr ⟨_, .combine op hp (by simp [OperandStack.size, hstack])⟩
      | right :: left :: below => exact Or.inl ⟨_, .combine op hp hstack⟩
  | assign =>
    -- only a line that starts with a name can be an assignment
    cases hp : s.phase with
    | afterName n => exact Or.inl ⟨_, .assign n hp⟩
    | _ => exact Or.inr ⟨_, .assign (by simp [hp])⟩

/-- No step takes the end of the line. -/
theorem step_endOfLine_ne_ok (s s' : LineState) : s.step .endOfLine ≠ .ok s' := by
  unfold step
  cases s.phase <;> simp

/-! ## The end of a line -/

/-- A line without a token is refused at its end. -/
theorem finish_of_start {s : LineState} (h : s.phase = .start) :
    s.finish = ⟨.error (.unexpected .endOfLine s.phase.describe), s.symbols, s.trace, 1⟩ := by
  simp [finish, h, refuse]

/-- A line without an operand has nothing to store. -/
theorem finish_of_nil {s : LineState} (hphase : s.phase ≠ .start) (hstack : s.stack.values = []) :
    s.finish = ⟨.error .nothingToCommit, s.symbols, s.trace, 1⟩ := by
  cases hp : s.phase <;> simp_all [finish, OperandStack.pop?]

/-- The top of the stack is stored, whether values are left below it or not. -/
theorem finish_of_cons {s : LineState} {v : Float} {below : List Float} (hphase : s.phase ≠ .start)
    (hstack : s.stack.values = v :: below) :
    s.finish = ⟨if below = [] then .ok v else .error (.residual s.stack.size),
      s.symbols.assign s.target v,
      s.trace.add (s.target ++ " = " ++ Decimal.valueText v) v, 1⟩ := by
  have hpop : s.stack.pop? = some (v, ⟨below⟩) := by rw [OperandStack.pop?, hstack]
  cases hp : s.phase with
  | start => exact absurd hp hphase
  | _ => cases below <;> simp [finish, hp, hpop, hstack, OperandStack.size]

/-- The end of a line counts as one token. -/
private theorem read_finish (s : LineState) : s.finish.read = 1 := by
  by_cases hphase : s.phase = .start
  · rw [finish_of_start hphase]
  · cases hstack : s.stack.values with
    | nil => rw [finish_of_nil hphase hstack]
    | cons v below => rw [finish_of_cons hphase hstack]

/-- A line is accepted at its end exactly when one value is left. -/
theorem result_finish_eq_ok_iff {s : LineState} {v : Float} :
    s.finish.result = .ok v ↔ s.phase ≠ .start ∧ s.stack.values = [v] := by
  by_cases hphase : s.phase = .start
  · simp [finish_of_start hphase, hphase]
  · cases hstack : s.stack.values with
    | nil => simp [finish_of_nil hphase hstack]
    | cons w below =>
      rw [finish_of_cons hphase hstack]
      cases below <;> simp [hphase]

/-! ## Runs -/

/-- Lines take the tokens of a list one after the other. -/
inductive Takes (s : LineState) : List Token → LineState → Prop
  | nil : Takes s [] s
  | snoc {ts : List Token} {t : Token} {s' s'' : LineState} (h : Takes s ts s')
      (hstep : Step s' t s'') : Takes s (ts ++ [t]) s''

/-- One step is a chain of steps. -/
theorem Takes.single {s s' : LineState} {t : Token} (h : Step s t s') : Takes s [t] s' :=
  .snoc .nil h

/-- Chains of steps are joined. -/
theorem Takes.trans {s s' s'' : LineState} {ts us : List Token} (h : Takes s ts s')
    (h' : Takes s' us s'') : Takes s (ts ++ us) s'' := by
  -- the second chain is taken apart from its end, as `Takes` is built
  induction h' with
  | nil => rwa [List.append_nil]
  | snoc _ hstep ih =>
    rw [← List.append_assoc]
    exact .snoc ih hstep

/-- Without a token there is no step. -/
theorem Takes.eq_of_nil {s s' : LineState} (h : Takes s [] s') : s' = s := by
  generalize hts : [] = ts at h
  cases h with
  | nil => rfl
  | snoc h hstep => simp at hts

/-- A chain of steps starts with a step for its first token. -/
theorem Takes.exists_of_cons {s s'' : LineState} {t : Token} {ts : List Token}
    (h : Takes s (t :: ts) s'') : ∃ s', Step s t s' ∧ Takes s' ts s'' := by
  generalize hus : t :: ts = us at h
  induction h generalizing ts with
  | nil => cases hus
  | @snoc us u s₁ s₂ h hstep ih =>
    -- the last step is also the first one, or the chain before it has the first
    cases us with
    | nil =>
      cases hus
      exact ⟨s₂, h.eq_of_nil ▸ hstep, .nil⟩
    | cons a us =>
      cases hus
      obtain ⟨s', hstep', htakes⟩ := ih rfl
      exact ⟨s', hstep', htakes.snoc hstep⟩

/-- No token that is taken is the end of the line. -/
theorem Takes.endOfLine_not_mem {s s' : LineState} {ts : List Token} (h : Takes s ts s') :
    .endOfLine ∉ ts := by
  induction h with
  | nil => exact List.not_mem_nil
  | snoc _ hstep ih =>
    rw [List.mem_append, List.mem_singleton, not_or]
    refine ⟨ih, ?_⟩
    rintro rfl
    exact step_endOfLine_ne_ok _ _ hstep.step_eq

/-- Token `t` ends a line, with the outcome `o`. -/
inductive Decides (s : LineState) : Token → Outcome → Prop
  | endOfLine : Decides s .endOfLine s.finish
  | refused {t : Token} {r : Rejection} (ht : t ≠ .endOfLine) (h : Refuses s t r) :
      Decides s t ⟨.error r, s.symbols, s.trace, 1⟩

/-- A line is accepted only at its end. -/
theorem Decides.eq_endOfLine_of_ok {s : LineState} {t : Token} {o : Outcome} {v : Float}
    (h : Decides s t o) (hresult : o.result = .ok v) : t = .endOfLine := by
  cases h with
  | endOfLine => rfl
  | refused ht hr => cases hresult

/-- A run that has come behind some tokens goes on with the others. -/
private theorem Takes.run_append {s s' : LineState} {ts : List Token} (h : Takes s ts s')
    (us : List Token) :
    s.run (ts ++ us) = { s'.run us with read := (s'.run us).read + ts.length } := by
  induction h generalizing us with
  | nil => rfl
  | @snoc ts t s' s'' h hstep ih =>
    -- the token taken last is the first one of the run that goes on
    have heq := hstep.step_eq
    have hrun : s'.run (t :: us) = { s''.run us with read := (s''.run us).read + 1 } := by
      cases t <;> simp_all [run, step_endOfLine_ne_ok]
    rw [List.append_assoc, List.singleton_append, ih, hrun]
    simp only [List.length_append, List.length_singleton]
    congr 1
    omega

/-- A run ends at the token that decides the line, having read it. -/
theorem Takes.run_of_decides {s s' : LineState} {p : List Token} {t : Token} {o : Outcome}
    (h : Takes s p s') (hdecides : Decides s' t o) (q : List Token) :
    s.run (p ++ t :: q) = { o with read := p.length + 1 } := by
  rw [h.run_append]
  cases hdecides with
  | endOfLine => rw [run, read_finish, Nat.add_comm]
  | refused ht hr =>
    have heq := hr.step_eq
    cases t <;> simp_all [run, Nat.add_comm]

/-- A run takes tokens up to one that decides the line; there is one before the end of the line or
    at it. -/
theorem exists_decides (s : LineState) (ts : List Token) :
    ∃ p t q s' o, ts ++ [.endOfLine] = p ++ t :: q ∧ Takes s p s' ∧ Decides s' t o := by
  induction ts generalizing s with
  -- nothing is left but the end of the line, which decides it
  | nil => exact ⟨[], .endOfLine, [], s, _, rfl, .nil, .endOfLine⟩
  | cons t ts ih =>
    by_cases ht : t = .endOfLine
    · subst ht
      exact ⟨[], .endOfLine, ts ++ [.endOfLine], s, _, rfl, .nil, .endOfLine⟩
    · rcases s.step_or_refuses ht with ⟨s', hstep⟩ | ⟨r, hr⟩
      · obtain ⟨p, u, q, s'', o, happend, htakes, hdecides⟩ := ih s'
        refine ⟨t :: p, u, q, s'', o, ?_, (Takes.single hstep).trans htakes, hdecides⟩
        rw [List.cons_append, happend, List.cons_append]
      · exact ⟨[], t, ts ++ [.endOfLine], s, _, rfl, .nil, .refused ht hr⟩

end LineState

end DeskCalc
