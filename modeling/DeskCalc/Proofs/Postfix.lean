import DeskCalc.Proofs.LineSteps

/-!
# Postfix expressions

Expressions as trees, the tokens that spell them in postfix notation, and their values.  A line
spells an expression, optionally behind a name and `=`.

The tokens that a line has taken are those of a draft: a target, and the expressions that wait for
an operator.  The operand stack holds their values, so a line is accepted exactly when one
expression is left.

## Key results

- `Sentence.tokens_injective`: a list of tokens spells one sentence at most
- `Takes.exists_draft`: what a line has taken is a draft, whose values are on the stack
- `evaluateLine_eq_ok_iff`: a line is accepted exactly when its tokens spell a sentence
-/

namespace DeskCalc

/-- An expression. -/
inductive Expr where
  | number (value : Float)
  | name (text : String)
  | negate (operand : Expr)
  | binary (op : BinaryOp) (left right : Expr)

namespace Expr

/-- The expression in postfix notation. -/
def tokens : Expr → List Token
  | number x => [.number x]
  | name n => [.name n]
  | negate e => e.tokens ++ [.negate]
  | binary op left right => left.tokens ++ right.tokens ++ [.binary op]

/-- The value of the expression when the variables have the values that `t` lists; a variable that
    is not listed is zero. -/
def value (t : SymbolTable) : Expr → Float
  | number x => x
  | name n => (t.get? n).getD 0.0
  | negate e => -e.value t
  | binary op left right => op.apply (left.value t) (right.value t)

/-- Reads postfix notation back: the expressions that are waiting after the tokens, the latest
    first, when those of the first argument were waiting before them. -/
def parse : List Expr → List Token → Option (List Expr)
  | waiting, [] => some waiting
  | waiting, .number x :: ts => parse (number x :: waiting) ts
  | waiting, .name n :: ts => parse (name n :: waiting) ts
  | e :: waiting, .negate :: ts => parse (negate e :: waiting) ts
  | right :: left :: waiting, .binary op :: ts => parse (binary op left right :: waiting) ts
  | _, _ => none

/-- `parse` reads the tokens of an expression back as this expression. -/
private theorem parse_tokens_append (e : Expr) (waiting : List Expr) (ts : List Token) :
    parse waiting (e.tokens ++ ts) = parse (e :: waiting) ts := by
  induction e generalizing waiting ts with
  | number x => rfl
  | name n => rfl
  | negate e ih =>
    rw [tokens, List.append_assoc, ih]
    rfl
  | binary op left right ihl ihr =>
    -- the operands wait one behind the other when their operator comes
    rw [tokens, List.append_assoc, List.append_assoc, ihl, ihr]
    rfl

/-- Two expressions are not spelt alike. -/
theorem tokens_injective {e e' : Expr} (h : e.tokens = e'.tokens) : e = e' := by
  have hparse := parse_tokens_append e [] []
  rw [h, parse_tokens_append e' [] []] at hparse
  simp only [parse, Option.some.injEq, List.cons.injEq, and_true] at hparse
  exact hparse.symm

/-- An expression has a token. -/
theorem tokens_ne_nil (e : Expr) : e.tokens ≠ [] := by
  cases e <;> simp [tokens]

/-- There is no `=` in an expression. -/
theorem assign_not_mem_tokens (e : Expr) : .assign ∉ e.tokens := by
  induction e with
  | number x => simp [tokens]
  | name n => simp [tokens]
  | negate e ih => simp [tokens, ih]
  | binary op left right ihl ihr => simp [tokens, ihl, ihr]

end Expr

/-- What a line says: an expression, and the variable that receives its value if one is named. -/
structure Sentence where
  target? : Option String
  body : Expr

/-- The tokens of an assignment up to its expression. -/
def targetTokens : Option String → List Token
  | none => []
  | some n => [.name n, .assign]

namespace Sentence

/-- The tokens that spell the sentence. -/
def tokens (s : Sentence) : List Token := targetTokens s.target? ++ s.body.tokens

/-- The variable that receives the value. -/
def target (s : Sentence) : String := s.target?.getD defaultTarget

/-- A sentence has a token. -/
theorem tokens_ne_nil (s : Sentence) : s.tokens ≠ [] :=
  List.append_ne_nil_of_right_ne_nil _ s.body.tokens_ne_nil

/-- Two sentences are not spelt alike. -/
theorem tokens_injective {s s' : Sentence} (h : s.tokens = s'.tokens) : s = s' := by
  obtain ⟨target?, body⟩ := s
  obtain ⟨target?', body'⟩ := s'
  cases target? with
  | none =>
    cases target?' with
    | none =>
      have hbody : body = body' := Expr.tokens_injective h
      rw [hbody]
    | some n =>
      -- no expression has a `=` in it, so a target cannot be mistaken for one
      have hmem : .assign ∈ body.tokens := by
        simp only [tokens, targetTokens, List.nil_append] at h
        rw [h]
        simp
      exact absurd hmem body.assign_not_mem_tokens
  | some n =>
    cases target?' with
    | none =>
      have hmem : .assign ∈ body'.tokens := by
        simp only [tokens, targetTokens, List.nil_append] at h
        rw [← h]
        simp
      exact absurd hmem body'.assign_not_mem_tokens
    | some n' =>
      simp only [tokens, targetTokens, List.cons_append, List.nil_append, List.cons.injEq,
        Token.name.injEq, true_and] at h
      rw [h.1, Expr.tokens_injective h.2]

end Sentence

/-- The names that a list of tokens reads, in the order of reading. -/
def namesOf (ts : List Token) : List String :=
  ts.filterMap fun
    | .name n => some n
    | _ => none

/-- Names are read in the order of the tokens. -/
@[simp] theorem namesOf_append (ts us : List Token) :
    namesOf (ts ++ us) = namesOf ts ++ namesOf us :=
  List.filterMap_append

/-- What has been read of a line: the target, if it has been named, and the expressions that wait
    for an operator, the latest first. -/
structure Draft where
  target? : Option String
  waiting : List Expr

namespace Draft

/-- The tokens that spell the draft. -/
def tokens (d : Draft) : List Token :=
  targetTokens d.target? ++ d.waiting.reverse.flatMap Expr.tokens

/-- The expression that came last is spelt last. -/
theorem tokens_cons (target? : Option String) (e : Expr) (waiting : List Expr) :
    tokens ⟨target?, e :: waiting⟩ = tokens ⟨target?, waiting⟩ ++ e.tokens := by
  simp [tokens]

end Draft

/-- The phase of a line that has taken some tokens. -/
def Phase.after : List Token → Phase
  | [] => .start
  | [.number _] => .afterNumber
  | [.name n] => .afterName n
  | _ => .inside

/-- A line is at its start while it has taken nothing. -/
private theorem Phase.after_eq_start_iff {ts : List Token} : Phase.after ts = .start ↔ ts = [] := by
  unfold Phase.after
  split <;> simp_all

/-- A line stands behind a name if it has taken nothing else. -/
theorem Phase.after_eq_afterName_iff {ts : List Token} {n : String} :
    Phase.after ts = .afterName n ↔ ts = [.name n] := by
  unfold Phase.after
  split <;> simp_all

/-- A second token brings the line inside. -/
private theorem Phase.after_append_singleton {ts : List Token} (h : ts ≠ []) (t : Token) :
    Phase.after (ts ++ [t]) = .inside := by
  match ts, h with
  | a :: b, _ => cases b <;> cases a <;> rfl

/-- The phase behind an operand, in terms of the tokens. -/
private theorem Phase.behind_after (ts : List Token) (t : Token) :
    (Phase.after ts).behind (Phase.after [t]) = Phase.after (ts ++ [t]) := by
  by_cases h : ts = []
  · subst h; rfl
  · rw [after_append_singleton h]
    have hne := mt after_eq_start_iff.1 h
    revert hne
    cases Phase.after ts <;> simp [behind]

namespace LineState

/-- A line that has taken `ts`, seen through the draft that they spell. -/
structure Follows (t : SymbolTable) (s : LineState) (ts : List Token) (d : Draft) : Prop where
  tokens : d.tokens = ts
  phase : s.phase = Phase.after ts
  stack : s.stack.values = d.waiting.map (Expr.value t)
  target : s.target = d.target?.getD defaultTarget
  symbols : s.symbols = t.touchAll (namesOf ts)

/-- A step takes a draft to a draft. -/
private theorem Follows.step {t : SymbolTable} {s s' : LineState} {ts : List Token} {d : Draft}
    {token : Token} (h : Follows t s ts d) (hstep : Step s token s') :
    ∃ d', Follows t s' (ts ++ [token]) d' := by
  obtain ⟨target?, waiting⟩ := d
  cases hstep with
  | number x =>
    refine ⟨⟨target?, .number x :: waiting⟩, ?_, ?_, ?_, h.target, ?_⟩
    · rw [Draft.tokens_cons, h.tokens, Expr.tokens]
    · rw [h.phase, ← Phase.behind_after]
      rfl
    · simp [pushNumber, OperandStack.push, h.stack, Expr.value]
    · simp [pushNumber, h.symbols, namesOf]
  | name n =>
    refine ⟨⟨target?, .name n :: waiting⟩, ?_, ?_, ?_, h.target, ?_⟩
    · rw [Draft.tokens_cons, h.tokens, Expr.tokens]
    · rw [h.phase, ← Phase.behind_after]
      rfl
    · have hvalue : s.symbols.value n = (t.get? n).getD 0.0 := by
        rw [h.symbols, SymbolTable.value_touchAll]
        rfl
      simp [pushName, SymbolTable.fetch_eq, OperandStack.push, h.stack, Expr.value, hvalue]
    · simp [pushName, SymbolTable.fetch_eq, h.symbols, namesOf]
  | negate hphase hstack =>
    -- the value on top of the stack is that of the expression that waits last
    have hts : ts ≠ [] := fun hnil => hphase (by rw [h.phase, hnil]; rfl)
    have hmap := h.stack.symm.trans hstack
    obtain ⟨e, below, rfl, rfl, rfl⟩ := List.map_eq_cons_iff.1 hmap
    refine ⟨⟨target?, .negate e :: below⟩, ?_, ?_, ?_, h.target, ?_⟩
    · rw [Draft.tokens_cons, Expr.tokens, ← List.append_assoc, ← Draft.tokens_cons, h.tokens]
    · rw [Phase.after_append_singleton hts]
    · simp [Expr.value]
    · simp [h.symbols, namesOf]
  | combine op hphase hstack =>
    have hts : ts ≠ [] := fun hnil => hphase (by rw [h.phase, hnil]; rfl)
    have hmap := h.stack.symm.trans hstack
    obtain ⟨right, below, rfl, rfl, hbelow⟩ := List.map_eq_cons_iff.1 hmap
    obtain ⟨left, below, rfl, rfl, rfl⟩ := List.map_eq_cons_iff.1 hbelow
    refine ⟨⟨target?, .binary op left right :: below⟩, ?_, ?_, ?_, h.target, ?_⟩
    · have htokens := h.tokens
      rw [Draft.tokens_cons, Draft.tokens_cons] at htokens
      rw [Draft.tokens_cons, Expr.tokens, ← htokens]
      simp only [List.append_assoc]
    · rw [Phase.after_append_singleton hts]
    · simp [Expr.value]
    · simp [h.symbols, namesOf]
  | assign n hphase =>
    -- the draft starts anew: its only expression so far was the name of the target
    have hts : ts = [.name n] := Phase.after_eq_afterName_iff.1 (h.phase ▸ hphase)
    refine ⟨⟨some n, []⟩, ?_, ?_, rfl, rfl, ?_⟩
    · rw [hts]; rfl
    · rw [hts]; rfl
    · simp [retarget, h.symbols, namesOf]

/-- What a line has taken is a draft, and the stack holds the values of its expressions. -/
theorem Takes.exists_draft {t : SymbolTable} {detailed : Bool} {s : LineState} {ts : List Token}
    (h : Takes (start t detailed) ts s) : ∃ d, Follows t s ts d := by
  generalize hstart : start t detailed = s₀ at h
  induction h with
  | nil =>
    subst hstart
    exact ⟨⟨none, []⟩, rfl, rfl, rfl, rfl, rfl⟩
  | snoc h hstep ih =>
    obtain ⟨d, hd⟩ := ih
    exact hd.step hstep

/-- A line is at its start while it has taken nothing. -/
theorem Takes.phase_eq_start_iff {t : SymbolTable} {detailed : Bool} {s : LineState}
    {p : List Token} (h : Takes (start t detailed) p s) : s.phase = .start ↔ p = [] := by
  obtain ⟨d, hd⟩ := h.exists_draft
  rw [hd.phase]
  exact Phase.after_eq_start_iff

/-- An expression is taken in every phase, and its value is put on the stack. -/
private theorem exists_takes_tokens (t : SymbolTable) (e : Expr) (s : LineState)
    (hvalue : ∀ n, s.symbols.value n = t.value n) :
    ∃ s', Takes s e.tokens s' ∧ s'.phase ≠ .start ∧
      s'.stack.values = e.value t :: s.stack.values ∧ s'.target = s.target ∧
      ∀ n, s'.symbols.value n = t.value n := by
  induction e generalizing s with
  | number x =>
    refine ⟨_, .single (.number x), ?_, rfl, rfl, hvalue⟩
    cases s.phase <;> simp [Phase.behind]
  | name n =>
    refine ⟨_, .single (.name n), ?_, ?_, rfl, fun m => ?_⟩
    · cases s.phase <;> simp [Phase.behind]
    · have hn : s.symbols.value n = (t.get? n).getD 0.0 := hvalue n
      simp [pushName, SymbolTable.fetch_eq, OperandStack.push, Expr.value, hn]
    · simp only [pushName, SymbolTable.fetch_eq]
      rw [SymbolTable.value_touch, hvalue]
  | negate e ih =>
    obtain ⟨s₁, htakes, hphase, hstack, htarget, hvalue₁⟩ := ih s hvalue
    exact ⟨_, htakes.snoc (.negate hphase hstack), by simp, rfl, htarget, hvalue₁⟩
  | binary op left right ihl ihr =>
    obtain ⟨s₁, htakes₁, -, hstack₁, htarget₁, hvalue₁⟩ := ihl s hvalue
    -- the right operand is taken behind the left one, whose value waits below it
    obtain ⟨s₂, htakes₂, hphase₂, hstack₂, htarget₂, hvalue₂⟩ := ihr s₁ hvalue₁
    rw [hstack₁] at hstack₂
    exact ⟨_, (htakes₁.trans htakes₂).snoc (.combine op hphase₂ hstack₂), by simp, rfl,
      htarget₂.trans htarget₁, hvalue₂⟩

/-- A target is taken at the start, and leaves the stack empty. -/
theorem exists_takes_targetTokens (t : SymbolTable) (detailed : Bool) (target? : Option String) :
    ∃ s, Takes (start t detailed) (targetTokens target?) s ∧ s.stack.values = [] ∧
      s.target = target?.getD defaultTarget ∧ ∀ m, s.symbols.value m = t.value m := by
  cases target? with
  | none => exact ⟨_, .nil, rfl, rfl, fun _ => rfl⟩
  | some n =>
    have hname := Step.name (s := start t detailed) n
    refine ⟨_, (Takes.single hname).snoc (.assign n rfl), rfl, rfl, fun m => ?_⟩
    simp only [retarget, pushName, SymbolTable.fetch_eq]
    exact SymbolTable.value_touch t n m

/-- A sentence is taken from the start, and leaves the value of its expression on the stack. -/
private theorem exists_takes_sentence (t : SymbolTable) (detailed : Bool) (sentence : Sentence) :
    ∃ s, Takes (start t detailed) sentence.tokens s ∧ s.phase ≠ .start ∧
      s.stack.values = [sentence.body.value t] ∧ s.target = sentence.target := by
  obtain ⟨s₁, htakes₁, hstack₁, htarget₁, hvalue₁⟩ :=
    exists_takes_targetTokens t detailed sentence.target?
  obtain ⟨s₂, htakes₂, hphase₂, hstack₂, htarget₂, -⟩ :=
    exists_takes_tokens t sentence.body s₁ hvalue₁
  rw [hstack₁] at hstack₂
  exact ⟨s₂, htakes₁.trans htakes₂, hphase₂, hstack₂, htarget₂.trans htarget₁⟩

end LineState

/-! ## Acceptance -/

/-- A token that decides a line in front of its end is one of the line. -/
theorem append_endOfLine_cases {ts p q : List Token} {t : Token}
    (h : ts ++ [.endOfLine] = p ++ t :: q) (hts : .endOfLine ∉ ts) :
    (t = .endOfLine ∧ p = ts) ∨ (t ≠ .endOfLine ∧ p ++ [t] <+: ts) := by
  -- the token is the end of the line, or it stands before it
  rcases List.append_eq_append_iff.1 h with ⟨a, rfl, ha⟩ | ⟨c, rfl, hc⟩
  · cases a with
    | nil => exact Or.inl ⟨(List.cons.inj ha).1.symm, List.append_nil ts⟩
    | cons x a => simp at ha
  · cases c with
    | nil => exact Or.inl ⟨(List.cons.inj hc).1, (List.append_nil p).symm⟩
    | cons x c =>
      obtain ⟨rfl, -⟩ := List.cons.inj hc
      refine Or.inr ⟨?_, c, by simp⟩
      rintro rfl
      exact hts (List.mem_append_right p List.mem_cons_self)

/-- The tokens of a line are accepted exactly when they spell a sentence, and the value is that of
    its expression. -/
theorem evaluateLine_eq_ok_iff (t : SymbolTable) (detailed : Bool) (ts : List Token)
    (h : .endOfLine ∉ ts) (v : Float) :
    (evaluateLine t detailed (ts ++ [.endOfLine])).result = .ok v ↔
      ∃ s : Sentence, s.tokens = ts ∧ s.body.value t = v := by
  constructor
  · intro hok
    obtain ⟨p, u, q, s, o, happend, htakes, hdecides⟩ :=
      LineState.exists_decides (LineState.start t detailed) ts
    rw [evaluateLine, happend, htakes.run_of_decides hdecides] at hok
    cases hdecides with
    | refused ht hr => cases hok
    | endOfLine =>
      obtain ⟨-, hstack⟩ := LineState.result_finish_eq_ok_iff.1 hok
      obtain ⟨⟨target?, waiting⟩, hd⟩ := htakes.exists_draft
      have hvalue := hd.stack.symm.trans hstack
      simp only at hvalue
      -- one value on the stack is one expression in the draft
      obtain ⟨e, rest, rfl, rfl, hrest⟩ := List.map_eq_cons_iff.1 hvalue
      obtain rfl := List.map_eq_nil_iff.1 hrest
      rcases append_endOfLine_cases happend h with ⟨-, hp⟩ | ⟨hne, -⟩
      · exact ⟨⟨target?, e⟩, by rw [← hp, ← hd.tokens, Sentence.tokens, Draft.tokens]; simp, rfl⟩
      · exact absurd rfl hne
  · rintro ⟨sentence, rfl, rfl⟩
    -- a sentence is taken to its end, where its value is alone on the stack
    obtain ⟨s, htakes, hphase, hstack, -⟩ :=
      LineState.exists_takes_sentence t detailed sentence
    rw [evaluateLine, htakes.run_of_decides .endOfLine]
    exact LineState.result_finish_eq_ok_iff.2 ⟨hphase, hstack⟩

/-- The target of an accepted line holds the value of its expression. -/
theorem get?_evaluateLine_target (t : SymbolTable) (detailed : Bool) (s : Sentence) :
    (evaluateLine t detailed (s.tokens ++ [.endOfLine])).symbols.get? s.target =
      some (s.body.value t) := by
  obtain ⟨s', htakes, hphase, hstack, htarget⟩ := LineState.exists_takes_sentence t detailed s
  rw [evaluateLine, htakes.run_of_decides .endOfLine, LineState.finish_of_cons hphase hstack]
  simp only
  -- the store comes last, to the target that was taken
  rw [SymbolTable.get?_assign, if_pos htarget.symm]

end DeskCalc
