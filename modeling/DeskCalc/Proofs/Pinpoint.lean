import DeskCalc.Proofs.Isolation
import DeskCalc.Proofs.LongestMatch
import DeskCalc.Proofs.Refusal
import Mathlib.Data.List.DropRight

/-!
# Diagnostics point at the cause

A line is refused at a token of one character: numbers and names are always taken, except that the
line may then end with too many of them.  The column of a diagnostic is the index of this character,
which is the one that the message blames.  What stands in front of it was taken, so it holds neither
a line feed nor a carriage return; the echo, which leaves these out at the end of a line, is
therefore long enough for the caret, however many carriage returns the line ends with.

## Key results

- `Refusal.blames`: the reason for a refusal blames the character of the token
- `Refusal.newline_not_mem_message`: a message is one line
- `Diagnostic.Pinpoints.render_eq`: a rendered diagnostic is three lines
- `Calculator.Awaits.pinpoints`: the diagnostic of a line that is refused
- `Calculator.evaluate_pinpoints_cause`: the diagnostics of any calls, on lines without line feeds
-/

namespace DeskCalc

/-! ## The character to blame -/

/-- The character for which a line is refused. -/
inductive Rejection.Blames : Rejection → Char → Prop
  | lexical (c : Char) : Blames (.lexical c) c
  | unexpected {x : Char} {found : Token} (place : String) (h : Token.ofSymbol? x = some found) :
      Blames (.unexpected found place) x
  | underflow (op : Char) (needed found : Nat) : Blames (.underflow op needed found) op
  | nothingToCommit : Blames .nothingToCommit '\n'
  | residual (count : Nat) : Blames (.residual count) '\n'

/-- A token of one character other than an invalid one is the token that the character stands
    for. -/
private theorem Token.ofSymbol?_of_getD {x : Char} {t : Token}
    (h : (Token.ofSymbol? x).getD (.invalid x) = t) (ht : ∀ c, t ≠ .invalid c) :
    Token.ofSymbol? x = some t := by
  -- a character that stands for nothing would be invalid
  cases hsymbol : Token.ofSymbol? x with
  | none =>
    rw [hsymbol] at h
    exact absurd h.symm (ht x)
  | some t' =>
    rw [hsymbol] at h
    exact congrArg some h

/-- A binary operator is named by its character. -/
private theorem Token.eq_symbol_of_ofSymbol? {x : Char} {op : BinaryOp}
    (h : Token.ofSymbol? x = some (.binary op)) : x = op.symbol := by
  unfold Token.ofSymbol? at h
  split at h
  all_goals cases h
  all_goals rfl

/-- Negation is named by its character. -/
private theorem Token.eq_tilde_of_ofSymbol? {x : Char} (h : Token.ofSymbol? x = some .negate) :
    x = '~' := by
  unfold Token.ofSymbol? at h
  split at h
  all_goals cases h
  rfl

/-- Numbers and names are not refused. -/
private theorem Refusal.not_operand {p : List Token} {t : Token} {d : Nat} {r : Rejection}
    (h : Refusal p t d r) : (∀ v, t ≠ .number v) ∧ ∀ n, t ≠ .name n := by
  cases h with
  | first ht =>
    rcases ht with ⟨op, rfl⟩ | rfl | rfl | rfl
    all_goals exact ⟨nofun, nofun⟩
  | lexical _ => exact ⟨nofun, nofun⟩
  | assign _ _ _ => exact ⟨nofun, nofun⟩
  | binary _ _ _ => exact ⟨nofun, nofun⟩
  | negate _ => exact ⟨nofun, nofun⟩
  | nothing _ => exact ⟨nofun, nofun⟩
  | residual _ _ _ => exact ⟨nofun, nofun⟩

/-- The reason for which a token of one character is refused blames this character. -/
theorem Refusal.blames {p : List Token} {t : Token} {d : Nat} {r : Rejection} {x : Char}
    (h : Refusal p t d r) (hx : (Token.ofSymbol? x).getD (.invalid x) = t) : r.Blames x := by
  -- what is blamed is known from the reason, and the character from its token
  cases h with
  | lexical _ _ c =>
    cases hsymbol : Token.ofSymbol? x with
    | none =>
      rw [hsymbol] at hx
      cases hx
      exact .lexical x
    | some t =>
      rw [hsymbol] at hx
      exact absurd (hsymbol.trans (congrArg some hx)) (Lexeme.ofSymbol?_ne_invalid x c)
  | first ht =>
    refine .unexpected _ (Token.ofSymbol?_of_getD hx ?_)
    rcases ht with ⟨op, rfl⟩ | rfl | rfl | rfl
    all_goals exact nofun
  | assign d hp hname => exact .unexpected _ (Token.ofSymbol?_of_getD hx nofun)
  | binary op hp hd =>
    rw [Token.eq_symbol_of_ofSymbol? (Token.ofSymbol?_of_getD hx nofun)]
    exact .underflow _ _ _
  | negate n =>
    rw [Token.eq_tilde_of_ofSymbol? (Token.ofSymbol?_of_getD hx nofun)]
    exact .underflow _ _ _
  | nothing n =>
    rw [Lexeme.ofSymbol?_eq_endOfLine_iff.1 (Token.ofSymbol?_of_getD hx nofun)]
    exact .nothingToCommit
  | residual hp hassign hd =>
    rw [Lexeme.ofSymbol?_eq_endOfLine_iff.1 (Token.ofSymbol?_of_getD hx nofun)]
    exact .residual _

/-! ## Messages of one line -/

/-- The digits of a number are digits. -/
private theorem exists_digitChar_of_mem_toDigits {b : Nat} (hb : 1 < b) {n : Nat} {c : Char}
    (hc : c ∈ Nat.toDigits b n) : ∃ m, c = Nat.digitChar m := by
  induction n using Nat.strongRecOn with
  | ind n ih =>
    rw [Nat.toDigits_eq_if hb] at hc
    by_cases hlt : n < b
    · rw [if_pos hlt] at hc
      exact ⟨n, List.mem_singleton.1 hc⟩
    · rw [if_neg hlt, List.mem_append, List.mem_singleton] at hc
      have hdiv : n / b < n := Nat.div_lt_self (by omega) hb
      rcases hc with hc | hc
      · exact ih _ hdiv hc
      · exact ⟨n % b, hc⟩

/-- There is no line feed among digits. -/
private theorem newline_not_mem_toDigits {b : Nat} (hb : 1 < b) (n : Nat) :
    '\n' ∉ Nat.toDigits b n := by
  intro hmem
  obtain ⟨m, hm⟩ := exists_digitChar_of_mem_toDigits hb hmem
  exact Nat.digitChar_ne '\n' (by decide) hm.symm

/-- A number is written on one line. -/
private theorem newline_not_mem_toString (n : Nat) : '\n' ∉ (toString n).toList := by
  show '\n' ∉ (String.ofList (Nat.toDigits 10 n)).toList
  rw [String.toList_ofList]
  exact newline_not_mem_toDigits (by decide) n

/-- A quoted character is written on one line, a line feed included. -/
private theorem newline_not_mem_quoteChar (c : Char) : '\n' ∉ (Text.quoteChar c).toList := by
  have hescape : '\n' ∉ (Text.escapeChar c).toList := by
    unfold Text.escapeChar
    split
    -- the six characters with an escape of their own; a line feed is one of them
    iterate 6 decide
    next hne _ _ =>
      have hdigits : '\n' ∉ (Text.hexDigits c.toNat).toList := by
        rw [Text.hexDigits, String.toList_ofList]
        exact newline_not_mem_toDigits (by decide) _
      split
      · rw [Text.codeEscape, String.toList_append, String.toList_append, List.mem_append,
          List.mem_append]
        rintro ((h | h) | h)
        · exact absurd h (by decide)
        · exact hdigits h
        · exact absurd h (by decide)
      · intro h
        simp only [Char.toString_eq_singleton, String.toList_singleton, List.mem_singleton] at h
        exact hne h.symm
  rw [Text.quoteChar, String.toList_append, String.toList_append, List.mem_append, List.mem_append]
  rintro ((h | h) | h)
  · exact absurd h (by decide)
  · exact hescape h
  · exact absurd h (by decide)

/-- The description of a place is one line. -/
private theorem Phase.newline_not_mem_describe (p : Phase) : '\n' ∉ p.describe.toList := by
  cases p with
  | start => simp [describe]
  | afterNumber => simp [describe]
  | afterName _ => simp [describe]
  | inside => simp [describe]

/-- The message about a token in the wrong place is one line. -/
private theorem newline_not_mem_unexpected {found : Token} (hfound : '\n' ∉ found.describe.toList)
    (p : Phase) : '\n' ∉ (Rejection.unexpected found p.describe).message.toList := by
  show '\n' ∉ ("unexpected " ++ found.describe ++ " " ++ p.describe).toList
  simp only [String.toList_append, List.mem_append, not_or]
  exact ⟨⟨⟨by simp, hfound⟩, by simp⟩, p.newline_not_mem_describe⟩

/-- The message about missing operands is one line. -/
private theorem newline_not_mem_underflow {op : Char} (hop : op ≠ '\n') (needed found : Nat) :
    '\n' ∉ (Rejection.underflow op needed found).message.toList := by
  show '\n' ∉ ("`" ++ op.toString ++ "` needs " ++ toString needed ++
    " operand(s) but the stack holds " ++ toString found).toList
  simp only [String.toList_append, List.mem_append, not_or]
  refine ⟨⟨⟨⟨⟨by simp, ?_⟩, by simp⟩, newline_not_mem_toString _⟩, by simp⟩,
    newline_not_mem_toString _⟩
  simpa using hop.symm

/-- The message of a diagnostic is one line. -/
theorem Refusal.newline_not_mem_message {p : List Token} {t : Token} {d : Nat} {r : Rejection}
    (h : Refusal p t d r) : '\n' ∉ r.message.toList := by
  -- the one message with a character of the line quotes it; the others are made of fixed texts
  cases h with
  | lexical _ _ c =>
    show '\n' ∉ ("unrecognized character " ++ Text.quoteChar c).toList
    rw [String.toList_append, List.mem_append, not_or]
    exact ⟨by simp, newline_not_mem_quoteChar c⟩
  | first ht =>
    apply newline_not_mem_unexpected
    rcases ht with ⟨op, rfl⟩ | rfl | rfl | rfl
    · cases op <;> decide
    all_goals decide
  | assign d hp hname => exact newline_not_mem_unexpected (by decide) _
  | binary op hp hd =>
    apply newline_not_mem_underflow
    cases op <;> decide
  | negate n => exact newline_not_mem_underflow (by decide) _ _
  | nothing n =>
    show '\n' ∉ "no value left to assign".toList
    simp
  | residual hp hassign hd =>
    show '\n' ∉ (toString d ++ " values left on the stack at end of line").toList
    rw [String.toList_append, List.mem_append, not_or]
    exact ⟨newline_not_mem_toString d, by simp⟩

/-! ## The echo of a line -/

namespace Diagnostic

/-- The echo is the line without the line feeds and carriage returns at its end. -/
private theorem echoLine_eq_rdropWhile (d : Diagnostic) :
    d.echoLine = d.line.rdropWhile isLineEnd := rfl

/-- What stands in front of a line is echoed, unless it ends the line. -/
private theorem prefix_echoLine {d : Diagnostic} {front : List Char} (hline : front <+: d.line)
    (hfront : ∀ a ∈ front, isLineEnd a = false) : front <+: d.echoLine := by
  obtain ⟨back, hback⟩ := hline
  rw [echoLine_eq_rdropWhile, ← hback]
  clear hback
  -- the echo drops characters from the end, none of which is in the front
  induction back using List.reverseRecOn with
  | nil =>
    -- the front does not end with an end of line
    have hself : front.rdropWhile isLineEnd = front := by
      rw [List.rdropWhile_eq_self_iff]
      intro hne
      simp [hfront _ (List.getLast_mem hne)]
    simp only [List.append_nil, hself, List.prefix_refl]
  | append_singleton back a ih =>
    rw [← List.append_assoc]
    by_cases ha : isLineEnd a = true
    · rwa [List.rdropWhile_concat_pos _ _ _ ha]
    · rw [List.rdropWhile_concat_neg _ _ _ ha, List.append_assoc]
      exact List.prefix_append _ _

/-- The echo of a line is one line. -/
private theorem newline_not_mem_echoLine {d : Diagnostic} {line : List Char}
    (hline : d.line = line ++ ['\n']) (h : '\n' ∉ line) : '\n' ∉ d.echoLine := by
  rw [echoLine_eq_rdropWhile, hline, List.rdropWhile_concat_pos _ _ _ rfl]
  intro hmem
  exact h ((List.rdropWhile_prefix isLineEnd line).subset hmem)

/-- A diagnostic points at the cause for which `line` is refused, and can be shown. -/
structure Pinpoints (d : Diagnostic) (line : List Char) : Prop where
  line_eq : d.line = line ++ ['\n']
  blames : ∃ x, d.line[d.column]? = some x ∧ d.rejection.Blames x
  column_le : d.column ≤ d.echoLine.length
  caretPadding_eq : d.caretPadding = Text.width (d.line.take d.column)
  render_eq : d.render.toList.splitOn '\n' =
    ["error: ".toList ++ d.message.toList, d.echoLine, List.replicate d.column ' ' ++ ['^'], []]

/-- A diagnostic whose message and echo are one line each is rendered as three lines. -/
private theorem splitOn_render {d : Diagnostic} (hmessage : '\n' ∉ d.message.toList)
    (hecho : '\n' ∉ d.echoLine) :
    d.render.toList.splitOn '\n' =
      ["error: ".toList ++ d.message.toList, d.echoLine, List.replicate d.column ' ' ++ ['^'],
        []] := by
  have hfirst : '\n' ∉ "error: ".toList ++ d.message.toList := by
    rw [List.mem_append, not_or]
    exact ⟨by simp, hmessage⟩
  have hcaret : '\n' ∉ List.replicate d.column ' ' ++ ['^'] := by
    rw [List.mem_append, not_or]
    refine ⟨fun hmem => ?_, by decide⟩
    exact absurd (List.eq_of_mem_replicate hmem) (by decide)
  -- the message, the echo and the caret, each with its line feed
  have hrender : d.render.toList = ("error: ".toList ++ d.message.toList) ++
      '\n' :: (d.echoLine ++ '\n' :: ((List.replicate d.column ' ' ++ ['^']) ++ '\n' :: [])) := by
    simp only [render, caretLine, String.toList_append, String.toList_ofList, List.append_assoc]
    rfl
  rw [hrender, List.splitOn_append_cons_self_of_not_mem hfirst,
    List.splitOn_append_cons_self_of_not_mem hecho,
    List.splitOn_append_cons_self_of_not_mem hcaret, List.splitOn_nil]

/-- If what stands in front of the column was not the end of the line, the caret is placed behind
    it. -/
private theorem caretPadding_of_prefix {d : Diagnostic} {front : List Char}
    (hlength : front.length = d.column) (hline : front <+: d.line) (hecho : front <+: d.echoLine) :
    d.column ≤ d.echoLine.length ∧ d.caretPadding = Text.width (d.line.take d.column) := by
  have htake : d.echoLine.take d.column = front := by
    rw [← hlength]
    exact (List.prefix_iff_eq_take.1 hecho).symm
  have htake' : d.line.take d.column = front := by
    rw [← hlength]
    exact (List.prefix_iff_eq_take.1 hline).symm
  refine ⟨hlength ▸ hecho.length_le, ?_⟩
  -- line and echo have the same characters in front of the column
  simp only [caretPadding, htake, htake', hlength]
  omega

end Diagnostic

/-! ## The diagnostic of a line -/

/-- Invalid characters are not taken. -/
private theorem LineState.Takes.invalid_not_mem {s s' : LineState} {ts : List Token}
    (h : Takes s ts s') (c : Char) : .invalid c ∉ ts := by
  induction h with
  | nil => exact List.not_mem_nil
  | snoc _ hstep ih =>
    rw [List.mem_append, List.mem_singleton, not_or]
    refine ⟨ih, ?_⟩
    rintro rfl
    cases hstep

/-- A lexeme other than the end of the line and an invalid character was written without line feeds
    and carriage returns. -/
private theorem Lexeme.isLineEnd_eq_false_of_mem_written {cs : List Char} {l : Lexeme}
    (hl : l ∈ line cs)
    (hend : l.token ≠ .endOfLine) (hinvalid : ∀ c, l.token ≠ .invalid c) {a : Char}
    (ha : a ∈ l.written) : Diagnostic.isLineEnd a = false := by
  obtain ⟨cs', -, hmunch, -⟩ := munch_of_next? (standalone_of_mem_line hl)
  have hreturn : IsStop '\r' := by
    unfold IsStop
    decide
  rw [Bool.eq_false_iff]
  intro htrue
  have hcases : a = '\n' ∨ a = '\r' := by
    simpa [Diagnostic.isLineEnd] using htrue
  have htext : a ∈ l.text := by
    rcases List.mem_append.1 ha with hgap | htext
    · rw [List.eq_of_mem_replicate hgap] at hcases
      exact absurd hcases (by decide)
    · exact htext
  -- each of the two would be a token of its own
  rcases hcases with rfl | rfl
  · exact hend (hmunch.eq_of_isStop isStop_newline htext).2
  · exact hinvalid '\r' (hmunch.eq_of_isStop hreturn htext).2

namespace Calculator

variable {σ : Type} [LineSource σ]

/-- Lexemes that have been taken were written without line feeds and carriage returns. -/
private theorem isLineEnd_eq_false_of_takes {s s' : LineState} {cs : List Char}
    {ls₁ ls₂ : List Lexeme}
    (hls : Lexeme.line cs = ls₁ ++ ls₂) (h : s.Takes (ls₁.map Lexeme.token) s') {a : Char}
    (ha : a ∈ ls₁.flatMap Lexeme.written) : Diagnostic.isLineEnd a = false := by
  obtain ⟨l, hl, ha⟩ := List.mem_flatMap.1 ha
  have hmem : l.token ∈ ls₁.map Lexeme.token := List.mem_map_of_mem hl
  have hline : l ∈ Lexeme.line cs := hls ▸ List.mem_append_left _ hl
  refine Lexeme.isLineEnd_eq_false_of_mem_written hline ?_ ?_ ha
  · intro hend
    exact h.endOfLine_not_mem (hend ▸ hmem)
  · intro c hinvalid
    exact h.invalid_not_mem c (hinvalid ▸ hmem)

/-- A line that is refused is refused at one of its characters, `x`, behind which scanning has
    stopped.  In front of it there is no line feed and no carriage return. -/
private theorem Awaits.exists_refused_character {c : Calculator σ} {line : List Char}
    (h : c.Awaits line) (hline : '\n' ∉ line) {detailed : Bool} {d : Diagnostic}
    (hd : (c.evaluate detailed).1.result = .error (.rejected d)) :
    ∃ front x more p depth, d.line = line ++ ['\n'] ∧ d.line = front ++ x :: more ∧
      d.column = front.length ∧ (∀ a ∈ front, Diagnostic.isLineEnd a = false) ∧
      Refusal p ((Token.ofSymbol? x).getD (.invalid x)) depth d.rejection ∧
      ∃ ts stream, ts ≠ [] ∧ c.stream.Yields ts stream ∧ d.column + 1 = stream.position ∧
        (c.evaluate detailed).2.stream = stream.flush := by
  obtain ⟨stream₀, hfill, hcursor⟩ := h.exists_fill
  have hrest : stream₀.cursor.rest = line ++ ['\n'] := by
    rw [hcursor]
    rfl
  obtain ⟨ls₁, l, ls₂, s, o, hls, ⟨htakes, hdecides, hyields⟩, heq⟩ :=
    exists_deciding_lexeme h.terminated hfill hrest hline detailed
  let stream := stream₀.acceptAll (ls₁ ++ [l])
  have heq : c.evaluate detailed = settle stream o := heq
  rw [heq] at hd ⊢
  obtain ⟨r, hresult, rfl⟩ := result_settle_eq_rejected_iff.1 hd
  have hrefusal : Refusal _ l.token s.stack.size r := hdecides.refusal htakes hresult
  -- the token that is refused has one character
  have hl : l ∈ Lexeme.line stream₀.cursor.rest := by
    rw [hls]
    exact List.mem_append_right _ List.mem_cons_self
  obtain ⟨cs, -, hmunch, -⟩ := Lexeme.munch_of_next? (Lexeme.standalone_of_mem_line hl)
  obtain ⟨x, htext, htoken⟩ : ∃ x, l.text = [x] ∧ l.token = (Token.ofSymbol? x).getD (.invalid x) :=
    hmunch.exists_of_not_operand hrefusal.not_operand.1 hrefusal.not_operand.2
  obtain ⟨more, happend⟩ := Lexeme.eq_flatMap_written_append hls
  let front : List Char := ls₁.flatMap Lexeme.written ++ List.replicate l.gap ' '
  -- what was read up to the refused character is the front, spaces included, and then the character
  have hwritten : (ls₁ ++ [l]).flatMap Lexeme.written = front ++ [x] := by
    rw [List.flatMap_append, List.flatMap_singleton, Lexeme.written, htext, List.append_assoc]
  have hcurrent : stream.currentLine = line ++ ['\n'] := by
    rw [(TokenStream.currentLine_acceptAll hls).1, TokenStream.currentLine, hcursor]
    rfl
  have hraw : stream.currentLine = front ++ x :: more := by
    rw [hcurrent, ← hrest, happend, hwritten, List.append_assoc]
    rfl
  have hposition : stream.position = front.length + 1 := by
    show (stream₀.acceptAll (ls₁ ++ [l])).position = front.length + 1
    rw [TokenStream.acceptAll_eq happend, hwritten, hcursor]
    simp [TokenStream.position, LineCursor.position, LineCursor.load]
  have hcolumn : stream.position - 1 = front.length := by omega
  refine ⟨front, x, more, _, _, hcurrent, hraw, hcolumn, ?_, htoken ▸ hrefusal,
    _, stream, by simp, hyields, ?_, ?_⟩
  · intro a ha
    rcases List.mem_append.1 ha with htaken | hgap
    · exact isLineEnd_eq_false_of_takes hls htakes htaken
    · rw [List.eq_of_mem_replicate hgap]
      rfl
  · show stream.position - 1 + 1 = stream.position
    omega
  · simp only [settle, hresult]

/-- The diagnostic of a line that is refused points at the character behind which scanning has
    stopped. -/
theorem Awaits.pinpoints {c : Calculator σ} {line : List Char} (h : c.Awaits line)
    (hline : '\n' ∉ line) {detailed : Bool} {d : Diagnostic}
    (hd : (c.evaluate detailed).1.result = .error (.rejected d)) :
    d.Pinpoints line ∧ ∃ ts stream, ts ≠ [] ∧ c.stream.Yields ts stream ∧
      d.column + 1 = stream.position ∧ (c.evaluate detailed).2.stream = stream.flush := by
  obtain ⟨front, x, more, p, depth, hcurrent, hraw, hcolumn, hfront, hrefusal, hstream⟩ :=
    h.exists_refused_character hline hd
  -- the front has no line end, so it is echoed as a whole
  have hprefix : front <+: d.line := ⟨x :: more, hraw.symm⟩
  obtain ⟨hle, hpadding⟩ := Diagnostic.caretPadding_of_prefix hcolumn.symm hprefix
    (Diagnostic.prefix_echoLine hprefix hfront)
  have hx : d.line[d.column]? = some x := by
    rw [hraw, hcolumn]
    simp
  have hrender := Diagnostic.splitOn_render hrefusal.newline_not_mem_message
    (Diagnostic.newline_not_mem_echoLine hcurrent hline)
  exact ⟨⟨hcurrent, ⟨x, hx, hrefusal.blames rfl⟩, hle, hpadding, hrender⟩, hstream⟩

end Calculator

/-! ## Call after call -/

/-- A source hands out `line`, now or later. -/
inductive LineSource.Supplies {σ : Type} [LineSource σ] : σ → List Char → Prop
  | now {s s' : σ} {line : List Char} (h : readLine s = (.line line, s')) : Supplies s line
  | later {s : σ} {line : List Char} (h : Supplies (readLine s).2 line) : Supplies s line

/-- What a queue hands out are its lines. -/
private theorem LineQueue.mem_of_supplies {q : LineQueue} {line : List Char}
    (h : LineSource.Supplies q line) : line ∈ q.lines := by
  induction h with
  | @now q q' line h =>
    obtain ⟨lines⟩ := q
    cases lines with
    | nil => cases h
    | cons first rest =>
      cases h
      exact List.mem_cons_self
  | @later q line _ ih =>
    rw [Calculator.lines_readLine] at ih
    exact List.mem_of_mem_tail ih

namespace Calculator

variable {σ : Type} [LineSource σ]

/-- With its buffer used up, a calculator awaits a line or is told by the input that there is
    none. -/
private theorem awaits_or_fill_error {c : Calculator σ} (hrest : c.stream.cursor.rest = []) :
    (∃ line, c.Awaits line) ∨ ∃ e stream, c.stream.fill = (.error e, stream) := by
  cases hfill : c.stream.fill with
  | mk r stream =>
    cases r with
    | error e => exact Or.inr ⟨e, stream, rfl⟩
    | ok =>
      rcases TokenStream.fill_eq_ok hfill with ⟨hne, -⟩ | ⟨-, line, source, hread, hexit, -⟩
      · exact absurd hrest hne
      · exact Or.inl ⟨line, hrest, ⟨source, hread⟩, hexit⟩

/-- A calculator that awaits a line has a source that supplies it. -/
private theorem Awaits.supplies {c : Calculator σ} {line : List Char} (h : c.Awaits line) :
    LineSource.Supplies c.source line := by
  obtain ⟨source, hread⟩ := h.readLine
  exact .now hread

/-- If no line has a line feed, every call uses the buffer up, and what the source still supplies is
    part of what it supplied before. -/
private theorem Reachable.rest_eq_nil {c₀ c : Calculator σ} (h : c₀.Reachable c)
    (hrest : c₀.stream.cursor.rest = [])
    (hlines : ∀ line, LineSource.Supplies c₀.source line → '\n' ∉ line) :
    c.stream.cursor.rest = [] ∧
      ∀ line, LineSource.Supplies c.source line → LineSource.Supplies c₀.source line := by
  induction h with
  | start => exact ⟨hrest, fun _ h => h⟩
  | @evaluate c _ detailed ih =>
    obtain ⟨hnil, hsupplies⟩ := ih
    have hsource := source_evaluate_of_rest_eq_nil hnil detailed
    refine ⟨?_, fun line hline => hsupplies line (.later (hsource ▸ hline))⟩
    -- a call that evaluates a line uses the buffer up, and one that gets none leaves it
    rcases awaits_or_fill_error hnil with ⟨line, hawaits⟩ | ⟨e, stream, hfill⟩
    · have hline : '\n' ∉ line := hlines line (hsupplies line hawaits.supplies)
      exact (hawaits.evaluate_settles hline detailed).2.2.2
    · rw [evaluate_of_fill_error hfill]
      exact (TokenStream.cursor_of_fill_error hfill).symm ▸ hnil

/-- If no line has a line feed, every diagnostic points at the cause for which the line that was
    pulled is refused: the character behind which scanning has stopped. -/
theorem evaluate_pinpoints_cause {c₀ c : Calculator σ} (h : c₀.Reachable c)
    (hrest : c₀.stream.cursor.rest = [])
    (hlines : ∀ line, LineSource.Supplies c₀.source line → '\n' ∉ line) {detailed : Bool}
    {d : Diagnostic} (hd : (c.evaluate detailed).1.result = .error (.rejected d)) :
    ∃ line source, LineSource.readLine c.source = (.line line, source) ∧ d.Pinpoints line ∧
      ∃ ts stream, ts ≠ [] ∧ c.stream.Yields ts stream ∧ d.column + 1 = stream.position ∧
        (c.evaluate detailed).2.stream = stream.flush := by
  obtain ⟨hnil, hsupplies⟩ := h.rest_eq_nil hrest hlines
  -- without a line the answer would be an error of the input
  rcases awaits_or_fill_error hnil with ⟨line, hawaits⟩ | ⟨e, stream, hfill⟩
  · obtain ⟨source, hread⟩ := hawaits.readLine
    have hline : '\n' ∉ line := hlines line (hsupplies line hawaits.supplies)
    exact ⟨line, source, hread, hawaits.pinpoints hline hd⟩
  · rw [evaluate_of_fill_error hfill] at hd
    cases hd

/-- Behind the line `=`, the line `1 ` with two carriage returns is refused at the first of them,
    which the echo leaves out: the caret stands behind the echo. -/
theorem evaluate_pinpoints_carriage_return :
    let c₀ : Calculator LineQueue := new ⟨[['='], ['1', ' ', '\r', '\r']]⟩ none
    let d : Diagnostic := ⟨.lexical '\r', ['1', ' ', '\r', '\r', '\n'], 2⟩
    ((c₀.evaluate false).2.evaluate false).1.result = .error (.rejected d) ∧
      d.Pinpoints ['1', ' ', '\r', '\r'] ∧ d.echoLine = ['1', ' '] := by
  intro c₀ d
  have hawaits₀ : c₀.Awaits ['='] := ⟨rfl, ⟨_, rfl⟩, by simp [c₀, new, TokenStream.new]⟩
  obtain ⟨hanswer₀, hsource₀, hexit₀, hrest₀⟩ := hawaits₀.evaluate_settles (by decide) false
  let c := (c₀.evaluate false).2
  have hawaits : c.Awaits ['1', ' ', '\r', '\r'] := by
    refine ⟨hrest₀, ⟨⟨[]⟩, ?_⟩, ?_⟩
    · rw [hsource₀]
      rfl
    · rw [hexit₀]
      simp [c₀, new, TokenStream.new]
  -- the scanner recurses on the length of the line, so its lexemes are cut off one by one
  have hlexemes : Lexeme.line (['1', ' ', '\r', '\r'] ++ ['\n']) =
      [⟨0, ['1'], .number (Decimal.readLiteral ['1'])⟩, ⟨1, ['\r'], .invalid '\r'⟩,
        ⟨0, ['\r'], .invalid '\r'⟩, ⟨0, ['\n'], .endOfLine⟩] := by
    rw [Lexeme.line_of_some rfl, if_neg (by simp), Lexeme.line_of_some rfl, if_neg (by decide),
      Lexeme.line_of_some rfl, if_neg (by decide), Lexeme.line_of_some rfl, if_pos rfl]
    rfl
  have hanswer : (segmentAnswer false ['1', ' ', '\r', '\r'] 0 c.symbols
      ['1', ' ', '\r', '\r']).1.result = .error (.rejected d) := by
    rw [segmentAnswer, lineTokens, hlexemes]
    rfl
  have hd : (c.evaluate false).1.result = .error (.rejected d) := by
    rw [← hanswer, ← (hawaits.evaluate_settles (by decide) false).1]
  -- both lines of the queue are without line feeds
  have hlines : ∀ line, LineSource.Supplies c₀.source line → '\n' ∉ line := by
    intro line hline
    rcases List.mem_cons.1 (LineQueue.mem_of_supplies hline) with rfl | hmem
    · decide
    · obtain rfl := List.mem_singleton.1 hmem
      decide
  obtain ⟨line, source, hread, hpinpoints, -⟩ :=
    evaluate_pinpoints_cause (.evaluate .start false) rfl hlines hd
  have hline := hpinpoints.line_eq
  obtain rfl : ['1', ' ', '\r', '\r'] = line := List.append_cancel_right hline
  exact ⟨hd, hpinpoints, rfl⟩

end Calculator

end DeskCalc
