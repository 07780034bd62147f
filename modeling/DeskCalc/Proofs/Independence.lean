import DeskCalc.Proofs.Frame
import DeskCalc.Proofs.Isolation

/-!
# Lines that have no variable in common

A line reads the variables that it names and stores in its target.  Its answer depends on the values
of these variables only, and no other variable changes, even if the line is refused.  So two lines
with different variables can be evaluated in either order: each gets the same answer, and every
variable has the same value afterwards.

## Key results

- `Step.withSymbols`, `Takes.withSymbols`, `Decides.withSymbols`: what a line does with two tables
  that agree on the names it reads, token by token and as a whole
- `lineAnswer_agree`: the answer to a line depends on its variables only
- `get?_lineAnswer`: no other variable changes
- `independent_lines_commute`: two lines with different variables, in either order
- `get?_symbolsBehind_of_perm`: the variables behind any number of such lines, in any order
-/

namespace DeskCalc

namespace SymbolTable

/-- Two tables list the same of some names, with the same values. -/
def AgreeOn (names : List String) (t t' : SymbolTable) : Prop := ∀ n ∈ names, t.get? n = t'.get? n

variable {names : List String} {t t' : SymbolTable}

/-- Tables that agree on a name have the same value for it. -/
private theorem AgreeOn.value_eq (h : t.AgreeOn names t') {n : String} (hn : n ∈ names) :
    t.value n = t'.value n := by
  rw [value, value, h n hn]

/-- Storing the same value under the same name makes no difference. -/
private theorem AgreeOn.assign (h : t.AgreeOn names t') (name : String) (value : Float) :
    (t.assign name value).AgreeOn names (t'.assign name value) := by
  intro n hn
  rw [get?_assign, get?_assign, h n hn]

/-- Reading a name lists it. -/
private theorem get?_touch (t : SymbolTable) (name n : String) :
    (t.touch name).get? n = if n = name then some (t.value name) else t.get? n := by
  by_cases hmem : name ∈ t.names
  · rw [touch_of_mem hmem]
    split
    · next heq => rw [heq, get?_of_mem hmem]
    · rfl
  · rw [touch_of_not_mem hmem, get?_assign, value, get?_eq_none_iff.2 hmem, Option.getD_none]

/-- Reading a name on which they agree leaves the tables in agreement. -/
private theorem AgreeOn.touch (h : t.AgreeOn names t') {name : String} (hname : name ∈ names) :
    (t.touch name).AgreeOn names (t'.touch name) := by
  intro n hn
  rw [get?_touch, get?_touch, h.value_eq hname, h n hn]

/-- Reading names changes no other name. -/
private theorem get?_touchAll_of_not_mem {n : String} (hn : n ∉ names) (t : SymbolTable) :
    (t.touchAll names).get? n = t.get? n := by
  induction names generalizing t with
  | nil => rfl
  | cons name names ih =>
    rw [List.mem_cons, not_or] at hn
    have hrest := ih hn.2 (t.touch name)
    rw [get?_touch, if_neg hn.1] at hrest
    exact hrest

end SymbolTable

/-! ## A line over two tables -/

namespace LineState

/-- The line with other variables. -/
def withSymbols (s : LineState) (symbols : SymbolTable) : LineState := { s with symbols }

variable {names : List String} {s s' : LineState} {t : SymbolTable}

/-- A token is taken alike if the tables agree on the names that it reads. -/
theorem Step.withSymbols {token : Token} (h : Step s token s')
    (hagree : s.symbols.AgreeOn names t) (hnames : ∀ n ∈ namesOf [token], n ∈ names) :
    ∃ t', Step (s.withSymbols t) token (s'.withSymbols t') ∧ s'.symbols.AgreeOn names t' := by
  cases h with
  | number x => exact ⟨t, .number x, hagree⟩
  | name n =>
    -- the only token that looks a name up and the only one that changes the table
    have hn : n ∈ names := hnames n List.mem_cons_self
    have hstep : Step (s.withSymbols t) (.name n) _ := .name n
    have hvalue : t.value n = s.symbols.value n := (hagree.value_eq hn).symm
    refine ⟨t.touch n, ?_, ?_⟩
    · simp only [pushName, LineState.withSymbols, SymbolTable.fetch_eq, hvalue] at hstep ⊢
      exact hstep
    · simp only [pushName, SymbolTable.fetch_eq]
      exact hagree.touch hn
  | negate hphase hstack => exact ⟨t, .negate hphase hstack, hagree⟩
  | combine op hphase hstack => exact ⟨t, .combine op hphase hstack, hagree⟩
  | assign n hphase => exact ⟨t, .assign n hphase, hagree⟩

/-- Tokens are taken alike if the tables agree on the names that they read. -/
theorem Takes.withSymbols {ts : List Token} (h : Takes s ts s')
    (hagree : s.symbols.AgreeOn names t) (hnames : ∀ n ∈ namesOf ts, n ∈ names) :
    ∃ t', Takes (s.withSymbols t) ts (s'.withSymbols t') ∧ s'.symbols.AgreeOn names t' := by
  induction h with
  | nil => exact ⟨t, .nil, hagree⟩
  | snoc _ hstep ih =>
    rw [namesOf_append] at hnames
    obtain ⟨t₁, htakes, hagree₁⟩ := ih fun n hn => hnames n (List.mem_append_left _ hn)
    obtain ⟨t₂, hstep₂, hagree₂⟩ :=
      hstep.withSymbols hagree₁ fun n hn => hnames n (List.mem_append_right _ hn)
    exact ⟨t₂, htakes.snoc hstep₂, hagree₂⟩

/-- No token is refused because of the variables. -/
theorem Refuses.withSymbols {token : Token} {r : Rejection} (h : Refuses s token r)
    (t : SymbolTable) : Refuses (s.withSymbols t) token r :=
  h.congr rfl rfl

/-- Outcomes that differ in the variables only, and not in those of `names`. -/
structure SameFor (names : List String) (o o' : Outcome) : Prop where
  result : o'.result = o.result
  trace : o'.trace = o.trace
  read : o'.read = o.read
  symbols : o.symbols.AgreeOn names o'.symbols

/-- The end of a line stores the same value in both tables. -/
private theorem sameFor_finish (s : LineState) (hagree : s.symbols.AgreeOn names t) :
    SameFor names s.finish (s.withSymbols t).finish := by
  by_cases hphase : s.phase = .start
  · rw [finish_of_start hphase, finish_of_start (s := s.withSymbols t) hphase]
    exact ⟨rfl, rfl, rfl, hagree⟩
  · cases hstack : s.stack.values with
    | nil =>
      rw [finish_of_nil hphase hstack, finish_of_nil (s := s.withSymbols t) hphase hstack]
      exact ⟨rfl, rfl, rfl, hagree⟩
    | cons v below =>
      rw [finish_of_cons hphase hstack, finish_of_cons (s := s.withSymbols t) hphase hstack]
      exact ⟨rfl, rfl, rfl, hagree.assign _ _⟩

/-- A line is decided alike if the tables agree. -/
theorem Decides.withSymbols {token : Token} {o : Outcome} (h : Decides s token o)
    (hagree : s.symbols.AgreeOn names t) :
    ∃ o', Decides (s.withSymbols t) token o' ∧ SameFor names o o' := by
  cases h with
  | endOfLine => exact ⟨_, .endOfLine, s.sameFor_finish hagree⟩
  | refused ht hr => exact ⟨_, .refused ht (hr.withSymbols t), rfl, rfl, rfl, hagree⟩

end LineState

open LineState (SameFor)

/-- The names that are read before a line is decided are names of the line. -/
theorem mem_namesOf_of_append {ts p q : List Token} {token : Token}
    (happend : ts ++ [.endOfLine] = p ++ token :: q) {n : String} (hn : n ∈ namesOf p) :
    n ∈ namesOf ts := by
  have hall : n ∈ namesOf (ts ++ [.endOfLine]) := by
    rw [happend, namesOf_append]
    exact List.mem_append_left _ hn
  rw [namesOf_append] at hall
  exact (List.mem_append.1 hall).resolve_right List.not_mem_nil

/-- What comes of a line depends on the variables that it reads. -/
private theorem sameFor_evaluateLine {names : List String} {t t' : SymbolTable}
    (hagree : t.AgreeOn names t') {ts : List Token} (hnames : ∀ n ∈ namesOf ts, n ∈ names)
    (detailed : Bool) :
    SameFor names (evaluateLine t detailed (ts ++ [.endOfLine]))
      (evaluateLine t' detailed (ts ++ [.endOfLine])) := by
  obtain ⟨p, token, q, s, o, happend, htakes, hdecides⟩ :=
    (LineState.start t detailed).exists_decides ts
  -- the tokens before the one that decides are taken alike, and then that one is
  have hread : ∀ n ∈ namesOf p, n ∈ names := by
    intro n hn
    apply hnames n
    exact mem_namesOf_of_append happend hn
  obtain ⟨t₁, htakes', hagree₁⟩ := htakes.withSymbols hagree hread
  obtain ⟨o', hdecides', hsame⟩ := hdecides.withSymbols hagree₁
  unfold evaluateLine
  rw [happend, htakes.run_of_decides hdecides]
  have hrun : (LineState.start t' detailed).run (p ++ token :: q) =
      { o' with read := p.length + 1 } := htakes'.run_of_decides hdecides' q
  rw [hrun]
  exact ⟨hsame.result, hsame.trace, rfl, hsame.symbols⟩

/-- The variables of a line: the one that it stores in, and those that it reads. -/
def variablesOf (line : List Char) : List String :=
  targetOf (lineTokens line) :: namesOf (lineTokens line)

/-- A line changes no variable but its own. -/
private theorem get?_evaluateLine {t : SymbolTable} {ts : List Token} (hts : .endOfLine ∉ ts)
    {n : String} (htarget : n ≠ targetOf ts) (hread : n ∉ namesOf ts) (detailed : Bool) :
    (evaluateLine t detailed (ts ++ [.endOfLine])).symbols.get? n = t.get? n := by
  obtain ⟨p, token, q, s, o, happend, htakes, hdecides⟩ :=
    (LineState.start t detailed).exists_decides ts
  obtain ⟨hsymbols, hstarget⟩ := htakes.symbols_eq
  have hp : n ∉ namesOf p := fun hn => hread (mem_namesOf_of_append happend hn)
  -- what is read is listed, but `n` is not among it
  have hkept : s.symbols.get? n = t.get? n := by
    rw [hsymbols, SymbolTable.get?_touchAll_of_not_mem hp]
  unfold evaluateLine
  rw [happend, htakes.run_of_decides hdecides]
  show o.symbols.get? n = t.get? n
  by_cases hstores : s.Stores token
  · -- the line has come to its end, so its target is that of all its tokens
    obtain ⟨v, below, hstack⟩ := List.exists_cons_of_ne_nil hstores.2
    have hall : p = ts := by
      rcases append_endOfLine_cases happend hts with h | h
      · exact h.2
      · exact absurd hstores.1 h.1
    rw [hdecides.symbols_of_stores htakes hstores hstack, SymbolTable.get?_assign, hstarget, hall,
      if_neg htarget, hkept]
  · rw [hdecides.symbols_of_not_stores hstores, hkept]

/-! ## The answer to a line -/

/-- The answer to the next line of a queue: the exit word is none that is evaluated. -/
def lineAnswer (exitWord : Option (List Char)) (detailed : Bool) (t : SymbolTable)
    (line : List Char) : Reply × SymbolTable :=
  if exitWord = some line then (⟨.error (.input .exit), []⟩, t)
  else segmentAnswer detailed line 0 t line

section Answer

variable {line : List Char}

/-- The answer to a line depends on its variables only. -/
theorem lineAnswer_agree {exitWord : Option (List Char)} {detailed : Bool} {t t' : SymbolTable}
    (hagree : t.AgreeOn (variablesOf line) t') :
    (lineAnswer exitWord detailed t line).1 = (lineAnswer exitWord detailed t' line).1 ∧
      (lineAnswer exitWord detailed t line).2.AgreeOn (variablesOf line)
        (lineAnswer exitWord detailed t' line).2 := by
  unfold lineAnswer
  split
  · exact ⟨rfl, hagree⟩
  · have hnames : ∀ n ∈ namesOf (lineTokens line), n ∈ variablesOf line :=
      fun n hn => List.mem_cons_of_mem _ hn
    have hsame := sameFor_evaluateLine hagree hnames detailed
    constructor
    · unfold segmentAnswer
      simp only [hsame.result, hsame.trace, hsame.read]
    · exact hsame.symbols

/-- No variable changes but those of the line. -/
theorem get?_lineAnswer {exitWord : Option (List Char)} {detailed : Bool} (hline : '\n' ∉ line)
    (t : SymbolTable) {n : String} (hn : n ∉ variablesOf line) :
    (lineAnswer exitWord detailed t line).2.get? n = t.get? n := by
  rw [variablesOf, List.mem_cons, not_or] at hn
  unfold lineAnswer
  split
  · rfl
  · exact get?_evaluateLine (endOfLine_not_mem_lineTokens hline) hn.1 hn.2 detailed

/-- A line that the source hands out is answered on its own. -/
theorem Calculator.evaluate_of_readLine {σ : Type} [LineSource σ] {c : Calculator σ}
    (hline : '\n' ∉ line) (hrest : c.stream.cursor.rest = []) {source : σ}
    (hread : LineSource.readLine c.source = (.line line, source)) (detailed : Bool) :
    (c.evaluate detailed).1 = (lineAnswer c.stream.exitWord detailed c.symbols line).1 ∧
      (c.evaluate detailed).2.symbols =
        (lineAnswer c.stream.exitWord detailed c.symbols line).2 ∧
      (c.evaluate detailed).2.source = source ∧
      (c.evaluate detailed).2.stream.exitWord = c.stream.exitWord ∧
      (c.evaluate detailed).2.stream.cursor.rest = [] := by
  by_cases hexit : c.stream.exitWord = some line
  · have hfill := TokenStream.fill_of_exit hrest hread hexit
    rw [evaluate_of_fill_error hfill, lineAnswer, if_pos hexit]
    exact ⟨rfl, rfl, rfl, rfl, hrest⟩
  · have hawaits : c.Awaits line := ⟨hrest, ⟨source, hread⟩, hexit⟩
    obtain ⟨hanswer, hafter, hword, hnil⟩ := hawaits.evaluate_settles hline detailed
    rw [lineAnswer, if_neg hexit, ← hanswer]
    refine ⟨rfl, rfl, ?_, hword, hnil⟩
    rw [hafter, hread]

/-- The lines of a queue are answered one by one. -/
private theorem Calculator.evaluate_of_queue {c : Calculator LineQueue} (hline : '\n' ∉ line)
    (hrest : c.stream.cursor.rest = []) {lines : List (List Char)}
    (hsource : c.source = ⟨line :: lines⟩) (detailed : Bool) :
    (c.evaluate detailed).1 = (lineAnswer c.stream.exitWord detailed c.symbols line).1 ∧
      (c.evaluate detailed).2.symbols =
        (lineAnswer c.stream.exitWord detailed c.symbols line).2 ∧
      (c.evaluate detailed).2.source = ⟨lines⟩ ∧
      (c.evaluate detailed).2.stream.exitWord = c.stream.exitWord ∧
      (c.evaluate detailed).2.stream.cursor.rest = [] :=
  evaluate_of_readLine hline hrest (congrArg LineSource.readLine hsource) detailed

end Answer

/-! ## Two lines -/

/-- Of two lines with different variables, the second gets the answer that it would get alone, and
    what it finds and leaves of its variables is what it would find and leave alone. -/
private theorem lineAnswer_behind {a b : List Char} (hb : '\n' ∉ b)
    (hdisjoint : ∀ n ∈ variablesOf a, n ∉ variablesOf b) (exitWord : Option (List Char))
    (da db : Bool) (t : SymbolTable) :
    (lineAnswer exitWord da (lineAnswer exitWord db t b).2 a).1 =
        (lineAnswer exitWord da t a).1 ∧
      (lineAnswer exitWord da (lineAnswer exitWord db t b).2 a).2.AgreeOn (variablesOf a)
        (lineAnswer exitWord da t a).2 := by
  apply lineAnswer_agree
  intro n hn
  exact get?_lineAnswer hb t (hdisjoint n hn)

/-- Two lines with different variables leave the same values in either order. -/
private theorem get?_lineAnswer_comm {a b : List Char} (ha : '\n' ∉ a) (hb : '\n' ∉ b)
    (hdisjoint : ∀ n ∈ variablesOf a, n ∉ variablesOf b) (exitWord : Option (List Char))
    (da db : Bool) (t : SymbolTable) (n : String) :
    (lineAnswer exitWord da (lineAnswer exitWord db t b).2 a).2.get? n =
      (lineAnswer exitWord db (lineAnswer exitWord da t a).2 b).2.get? n := by
  have hdisjoint' : ∀ n ∈ variablesOf b, n ∉ variablesOf a :=
    fun n hnb hna => hdisjoint n hna hnb
  by_cases hna : n ∈ variablesOf a
  · -- the value that the first line leaves is not touched by the second
    rw [(lineAnswer_behind hb hdisjoint exitWord da db t).2 n hna,
      get?_lineAnswer hb _ (hdisjoint n hna)]
  · rw [get?_lineAnswer ha _ hna]
    by_cases hnb : n ∈ variablesOf b
    · exact ((lineAnswer_behind ha hdisjoint' exitWord db da t).2 n hnb).symm
    · rw [get?_lineAnswer hb _ hnb, get?_lineAnswer hb _ hnb, get?_lineAnswer ha _ hna]

/-! ## Any number of lines -/

/-- The variables after several lines. -/
def symbolsBehind (exitWord : Option (List Char)) (detailed : Bool) (t : SymbolTable)
    (lines : List (List Char)) : SymbolTable :=
  lines.foldl (fun t line => (lineAnswer exitWord detailed t line).2) t

/-- Tables with the same values stay so, whatever lines are evaluated. -/
private theorem get?_symbolsBehind_congr {lines : List (List Char)}
    (hlines : ∀ line ∈ lines, '\n' ∉ line)
    (exitWord : Option (List Char)) (detailed : Bool) {t t' : SymbolTable}
    (h : ∀ n, t.get? n = t'.get? n) (n : String) :
    (symbolsBehind exitWord detailed t lines).get? n =
      (symbolsBehind exitWord detailed t' lines).get? n := by
  induction lines generalizing t t' with
  | nil => exact h n
  | cons line lines ih =>
    obtain ⟨hline, hlater⟩ := List.forall_mem_cons.1 hlines
    apply ih hlater
    intro m
    -- the line leaves its own variables alike, and the others alone
    by_cases hm : m ∈ variablesOf line
    · exact (lineAnswer_agree fun k _ => h k).2 m hm
    · rw [get?_lineAnswer hline t hm, get?_lineAnswer hline t' hm, h m]

/-- Lines that have no variable in common leave the same values in any order. -/
theorem get?_symbolsBehind_of_perm {lines lines' : List (List Char)} (hperm : lines.Perm lines')
    (hlines : ∀ line ∈ lines, '\n' ∉ line)
    (hdisjoint : lines.Pairwise fun a b => ∀ n ∈ variablesOf a, n ∉ variablesOf b)
    (exitWord : Option (List Char)) (detailed : Bool) (t : SymbolTable) (n : String) :
    (symbolsBehind exitWord detailed t lines).get? n =
      (symbolsBehind exitWord detailed t lines').get? n := by
  induction hperm generalizing t with
  | nil => rfl
  | cons line _ ih =>
    exact ih (List.forall_mem_cons.1 hlines).2 (List.pairwise_cons.1 hdisjoint).2 _
  | swap a b lines =>
    -- the lines behind the two do not notice in which order these came
    obtain ⟨hb, hlater⟩ := List.forall_mem_cons.1 hlines
    obtain ⟨ha, hlater⟩ := List.forall_mem_cons.1 hlater
    have hab := (List.pairwise_cons.1 hdisjoint).1 a List.mem_cons_self
    apply get?_symbolsBehind_congr hlater
    intro m
    exact (get?_lineAnswer_comm hb ha hab exitWord detailed detailed t m).symm
  | trans hperm _ ih ih' =>
    have hsymm : ∀ a b : List Char, (∀ n ∈ variablesOf a, n ∉ variablesOf b) →
        ∀ n ∈ variablesOf b, n ∉ variablesOf a := fun a b h n hnb hna => h n hna hnb
    have hlines' := fun line hline => hlines line (hperm.mem_iff.2 hline)
    have hdisjoint' := (hperm.pairwise_iff fun {a b} => hsymm a b).1 hdisjoint
    exact (ih hlines hdisjoint t).trans (ih' hlines' hdisjoint' t)

/-! ## Two calls in either order -/

/-- Two lines that have no variable in common get the same answers in either order, whatever the
    variables are, and leave the same values; one of them may be refused, or both.  The variables of
    a line are the names among its tokens, and `it` if it does not start with a name and `=`. -/
theorem independent_lines_commute {c : Calculator LineQueue} (hrest : c.stream.cursor.rest = [])
    {a b : List Char} (ha : '\n' ∉ a) (hb : '\n' ∉ b)
    (hdisjoint : ∀ n ∈ variablesOf a, n ∉ variablesOf b) (da db : Bool)
    (more : List (List Char)) :
    let a₁ := (c.withSource ⟨a :: b :: more⟩).evaluate da
    let b₁ := a₁.2.evaluate db
    let b₂ := (c.withSource ⟨b :: a :: more⟩).evaluate db
    let a₂ := b₂.2.evaluate da
    a₁.1 = a₂.1 ∧ b₁.1 = b₂.1 ∧ ∀ n, b₁.2.symbols.get? n = a₂.2.symbols.get? n := by
  intro a₁ b₁ b₂ a₂
  have hdisjoint' : ∀ n ∈ variablesOf b, n ∉ variablesOf a :=
    fun n hnb hna => hdisjoint n hna hnb
  obtain ⟨hreply₁, hsymbols₁, hsource₁, hword₁, hrest₁⟩ :=
    Calculator.evaluate_of_queue (c := c.withSource ⟨a :: b :: more⟩) ha hrest rfl da
  obtain ⟨hreply₁', hsymbols₁', -⟩ :=
    Calculator.evaluate_of_queue hb hrest₁ hsource₁ db
  obtain ⟨hreply₂, hsymbols₂, hsource₂, hword₂, hrest₂⟩ :=
    Calculator.evaluate_of_queue (c := c.withSource ⟨b :: a :: more⟩) hb hrest rfl db
  obtain ⟨hreply₂', hsymbols₂', -⟩ :=
    Calculator.evaluate_of_queue ha hrest₂ hsource₂ da
  rw [hword₁, hsymbols₁] at hreply₁' hsymbols₁'
  rw [hword₂, hsymbols₂] at hreply₂' hsymbols₂'
  -- each line is answered as it would be alone, whichever comes first
  refine ⟨?_, ?_, ?_⟩
  · exact hreply₁.trans ((lineAnswer_behind hb hdisjoint _ da db _).1.symm.trans hreply₂'.symm)
  · exact hreply₁'.trans ((lineAnswer_behind ha hdisjoint' _ db da _).1.trans hreply₂.symm)
  · intro n
    show (a₁.2.evaluate db).2.symbols.get? n = (b₂.2.evaluate da).2.symbols.get? n
    rw [hsymbols₁', hsymbols₂']
    exact (get?_lineAnswer_comm ha hb hdisjoint _ da db _ n).symm

/-- The lines `x=1` and `+` can be evaluated in either order; the second is refused in both. -/
theorem assignment_and_refused_line_commute :
    let c : Calculator LineQueue := Calculator.new LineQueue.empty none
    let a₁ := (c.withSource ⟨["x=1".toList, "+".toList]⟩).evaluate false
    let b₁ := a₁.2.evaluate false
    let b₂ := (c.withSource ⟨["+".toList, "x=1".toList]⟩).evaluate false
    let a₂ := b₂.2.evaluate false
    a₁.1 = a₂.1 ∧ b₁.1 = b₂.1 ∧ ∀ n, b₁.2.symbols.get? n = a₂.2.symbols.get? n := by
  have hassign : variablesOf "x=1".toList = ["x", "x"] := by
    have htokens : lineTokens "x=1".toList =
        [.name "x", .assign, .number (Decimal.readLiteral ['1'])] := by
      rw [lineTokens_eq (by decide), Lexeme.line_of_some rfl, if_neg nofun, Lexeme.line_of_some rfl,
        if_neg nofun, Lexeme.line_of_some rfl, if_neg nofun, Lexeme.line_of_none rfl]
      rfl
    rw [variablesOf, htokens]
    rfl
  have hplus : variablesOf "+".toList = ["it"] := by
    have htokens : lineTokens "+".toList = [.binary .add] := by
      rw [lineTokens_eq (by decide), Lexeme.line_of_some rfl, if_neg nofun, Lexeme.line_of_none rfl]
      rfl
    rw [variablesOf, htokens]
    rfl
  -- an assignment has no `it` among its variables
  apply independent_lines_commute rfl (by decide) (by decide)
  rw [hassign, hplus]
  decide

end DeskCalc
