import DeskCalc.Input.Host
import Mathlib.Data.List.Induction
import Mathlib.Data.List.TakeWhile

/-!
# The lines of a text behind a prompt

A stream of bytes is read up to a line feed, and the bytes are decoded only then.  For the bytes of
a text this cuts the text itself at its line feeds: the byte of a line feed occurs in no other
character, and the bytes of a text are decoded to the text.

## Key results

- `lineFeed_not_mem_utf8Bytes`: no other character has the byte of a line feed
- `decode?_utf8Bytes`: the bytes of a text are decoded to it
- `text_induction`: a text is empty, or a line without its end, or a line and more text
- `textLines_newline`, `textBehind_newline`: how a line feed cuts a text
- `Prompted.readLine_newline`: reading a line of a text
-/

namespace DeskCalc

/-! ## The bytes of a text -/

/-- The bytes of a text are those of its characters. -/
theorem utf8Bytes_ofList (text : List Char) :
    utf8Bytes (String.ofList text) = text.flatMap String.utf8EncodeChar := by
  rw [utf8Bytes, String.toUTF8_eq_toByteArray, String.toByteArray_ofList, List.utf8Encode,
    List.data_toByteArray]

/-- A byte with its highest bit set is not that of a line feed. -/
private theorem lineFeed_ne_ofNat {n : Nat} (hlow : 128 ≤ n) (hhigh : n < 256) :
    Prompted.lineFeed ≠ UInt8.ofNat n := by
  intro h
  have hvalue : (10 : Nat) = n % 256 := by
    simpa [Prompted.lineFeed] using congrArg UInt8.toNat h
  omega

/-- The bytes of a character beyond seven bits have their highest bit set. -/
private theorem eq_newline_of_mem_utf8EncodeChar {c : Char}
    (h : Prompted.lineFeed ∈ String.utf8EncodeChar c) : c = '\n' := by
  unfold String.utf8EncodeChar at h
  simp only at h
  have hne : ∀ n, 128 ≤ n → n < 256 → Prompted.lineFeed ≠ UInt8.ofNat n :=
    fun n => lineFeed_ne_ofNat
  split at h
  · -- one byte, which is the code of the character
    next hascii =>
      have hvalue : (10 : Nat) = c.val.toNat % 256 := by
        simpa [Prompted.lineFeed] using congrArg UInt8.toNat (List.mem_singleton.1 h)
      have hcode : c.toNat = '\n'.toNat := by
        show c.val.toNat = 10
        omega
      exact Char.toNat_inj.1 hcode
  · exfalso
    split at h
    · simp only [List.mem_cons, List.not_mem_nil, or_false] at h
      rcases h with h | h
      · exact hne _ (by omega) (by omega) h
      · exact hne _ (by omega) (by omega) h
    · split at h
      · simp only [List.mem_cons, List.not_mem_nil, or_false] at h
        rcases h with h | h | h
        · exact hne _ (by omega) (by omega) h
        · exact hne _ (by omega) (by omega) h
        · exact hne _ (by omega) (by omega) h
      · simp only [List.mem_cons, List.not_mem_nil, or_false] at h
        rcases h with h | h | h | h
        · exact hne _ (by omega) (by omega) h
        · exact hne _ (by omega) (by omega) h
        · exact hne _ (by omega) (by omega) h
        · exact hne _ (by omega) (by omega) h

/-- No character but the line feed has the byte of a line feed. -/
theorem lineFeed_not_mem_utf8Bytes {text : List Char} (h : '\n' ∉ text) :
    Prompted.lineFeed ∉ utf8Bytes (String.ofList text) := by
  rw [utf8Bytes_ofList]
  intro hmem
  obtain ⟨c, hc, hbyte⟩ := List.mem_flatMap.1 hmem
  exact h (eq_newline_of_mem_utf8EncodeChar hbyte ▸ hc)

/-- The bytes of a line feed stand between those of the two parts. -/
private theorem utf8Bytes_ofList_newline (front more : List Char) :
    utf8Bytes (String.ofList (front ++ '\n' :: more)) =
      utf8Bytes (String.ofList front) ++ Prompted.lineFeed :: utf8Bytes (String.ofList more) := by
  simp only [utf8Bytes_ofList, List.flatMap_append, List.flatMap_cons]
  rfl

/-- A text that is not empty has bytes. -/
private theorem utf8Bytes_ne_nil {text : List Char} (h : text ≠ []) :
    utf8Bytes (String.ofList text) ≠ [] := by
  rw [utf8Bytes_ofList]
  intro hnil
  obtain ⟨c, cs, rfl⟩ := List.exists_cons_of_ne_nil h
  rw [List.flatMap_cons, List.append_eq_nil_iff] at hnil
  exact String.utf8EncodeChar_ne_nil hnil.1

/-- The bytes of a text are decoded to the text. -/
theorem decode?_utf8Bytes (text : List Char) :
    Prompted.decode? (utf8Bytes (String.ofList text)) = some text := by
  have hbytes : (⟨(utf8Bytes (String.ofList text)).toArray⟩ : ByteArray) =
      (String.ofList text).toUTF8 := rfl
  -- decoding is encoding undone
  have hdecode : String.fromUTF8? (String.ofList text).toUTF8 = some (String.ofList text) := by
    unfold String.fromUTF8?
    rw [String.toUTF8_eq_toByteArray, dif_pos (String.ofList text).isValidUTF8]
    rfl
  rw [Prompted.decode?, hbytes, hdecode, Option.map_some, String.toList_ofList]

/-! ## The lines of a text -/

/-- A text is empty, or a line without its end, or a line and more text behind its line feed. -/
@[elab_as_elim]
theorem text_induction {motive : List Char → Prop} (nil : motive [])
    (last : ∀ line, line ≠ [] → '\n' ∉ line → motive line)
    (newline : ∀ front more, '\n' ∉ front → motive more → motive (front ++ '\n' :: more))
    (text : List Char) : motive text := by
  -- what is behind a line feed is shorter than the text
  induction hlength : text.length using Nat.strongRecOn generalizing text with
  | ind n ih =>
    by_cases hmem : '\n' ∈ text
    · obtain ⟨front, more, rfl, hfront⟩ := List.eq_append_cons_of_mem hmem
      have hlt : more.length < n := by
        rw [← hlength, List.length_append, List.length_cons]
        omega
      exact newline front more hfront (ih _ hlt more rfl)
    · by_cases hne : text = []
      · rw [hne]
        exact nil
      · exact last text hne hmem

/-- The line without the carriage return at its end, if there is one. -/
def dropReturn (line : List Char) : List Char :=
  if line.getLast? = some '\r' then line.dropLast else line

/-- The lines of which these are the pieces between the line feeds.  Behind the last line feed there
    is a line only if there is something. -/
def linesOfPieces : List (List Char) → List (List Char)
  | [] => []
  | [last] => if last = [] then [] else [last]
  | piece :: pieces => dropReturn piece :: linesOfPieces pieces

/-- The lines of a text.  They are cut at the line feeds; a carriage return in front of a line feed
    belongs to the end of the line. -/
def textLines (text : List Char) : List (List Char) := linesOfPieces (text.splitOn '\n')

/-- What is behind the first `n` lines of a text. -/
def textBehind (n : Nat) (text : List Char) : List Char :=
  ['\n'].intercalate ((text.splitOn '\n').drop n)

/-- The empty text has no lines. -/
@[simp] theorem textLines_nil : textLines [] = [] := by
  rw [textLines, List.splitOn_nil, linesOfPieces, if_pos rfl]

/-- A text without a line feed is one line. -/
theorem textLines_last {line : List Char} (hne : line ≠ []) (hline : '\n' ∉ line) :
    textLines line = [line] := by
  rw [textLines, List.splitOn_eq_singleton hline, linesOfPieces, if_neg hne]

/-- The first line ends at the first line feed. -/
theorem textLines_newline {front : List Char} (hfront : '\n' ∉ front) (more : List Char) :
    textLines (front ++ '\n' :: more) = dropReturn front :: textLines more := by
  obtain ⟨piece, pieces, hpieces⟩ := List.exists_cons_of_ne_nil (List.splitOn_ne_nil '\n' more)
  rw [textLines, textLines, List.splitOn_append_cons_self_of_not_mem hfront, hpieces, linesOfPieces]
  exact List.cons_ne_nil piece pieces

/-- One carriage return in front of a line feed is dropped, and none at the end of the text. -/
example : textLines ['1', '\r', '\r', '\n', '\n', 'x', '\r'] = [['1', '\r'], [], ['x', '\r']] := by
  decide

/-- All of a text is behind no lines. -/
theorem textBehind_zero (text : List Char) : textBehind 0 text = text := by
  rw [textBehind, List.drop_zero, List.intercalate_splitOn]

/-- Nothing is behind the last line. -/
theorem textBehind_last {line : List Char} (hline : '\n' ∉ line) (n : Nat) :
    textBehind (n + 1) line = [] := by
  rw [textBehind, List.splitOn_eq_singleton hline, List.drop_succ_cons, List.drop_nil]
  rfl

/-- What is behind more lines than the first one is behind them in the rest. -/
theorem textBehind_newline {front : List Char} (hfront : '\n' ∉ front) (more : List Char)
    (n : Nat) : textBehind (n + 1) (front ++ '\n' :: more) = textBehind n more := by
  rw [textBehind, List.splitOn_append_cons_self_of_not_mem hfront, List.drop_succ_cons, textBehind]

/-- Dropping the carriage return adds no line feed. -/
private theorem newline_not_mem_dropReturn {line : List Char} (h : '\n' ∉ line) :
    '\n' ∉ dropReturn line := by
  unfold dropReturn
  split
  · exact fun hmem => h (List.dropLast_subset line hmem)
  · exact h

/-- No line of a text has a line feed in it. -/
theorem newline_not_mem_of_mem_textLines {text line : List Char} (h : line ∈ textLines text) :
    '\n' ∉ line := by
  induction text using text_induction with
  | nil =>
    rw [textLines_nil] at h
    exact absurd h List.not_mem_nil
  | last last hne hlast =>
    rw [textLines_last hne hlast] at h
    rw [List.mem_singleton.1 h]
    exact hlast
  | newline front more hfront ih =>
    rw [textLines_newline hfront] at h
    rcases List.mem_cons.1 h with rfl | h
    · exact newline_not_mem_dropReturn hfront
    · exact ih h

/-! ## Reading a line of a text -/

/-- A sink without limit takes the whole text. -/
theorem Sink.write_unlimited (written : List UInt8) (text : String) :
    (Sink.mk written none).write text = (.ok (), ⟨written ++ utf8Bytes text, none⟩) := by
  simp only [write, fitting, if_true]

namespace Prompted

/-- The search for a line feed runs through bytes without one. -/
private theorem bne_lineFeed {bytes : List UInt8} (h : lineFeed ∉ bytes) :
    ∀ b ∈ bytes, (b != lineFeed) = true := by
  intro b hb
  rw [bne_iff_ne]
  rintro rfl
  exact h hb

/-- The bytes of a text are split where the text is. -/
private theorem splitLine_newline {front : List Char} (hfront : '\n' ∉ front) (more : List Char) :
    splitLine (utf8Bytes (String.ofList (front ++ '\n' :: more))) =
      (utf8Bytes (String.ofList (front ++ ['\n'])), utf8Bytes (String.ofList more)) := by
  have hne := bne_lineFeed (lineFeed_not_mem_utf8Bytes hfront)
  -- the search stops at the first line feed, which belongs to the line
  have hdrop : (utf8Bytes (String.ofList (front ++ '\n' :: more))).dropWhile (· != lineFeed) =
      lineFeed :: utf8Bytes (String.ofList more) := by
    rw [utf8Bytes_ofList_newline, List.dropWhile_append_of_pos hne, List.dropWhile_cons,
      if_neg (by simp)]
  have htake : (utf8Bytes (String.ofList (front ++ '\n' :: more))).takeWhile (· != lineFeed) =
      utf8Bytes (String.ofList front) := by
    rw [utf8Bytes_ofList_newline, List.takeWhile_append_of_pos hne, List.takeWhile_cons,
      if_neg (by simp), List.append_nil]
  have hline : utf8Bytes (String.ofList (front ++ ['\n'])) =
      utf8Bytes (String.ofList front) ++ [lineFeed] := utf8Bytes_ofList_newline front []
  simp only [splitLine, hdrop, htake, hline]

/-- Without a line feed, all bytes belong to the line. -/
private theorem splitLine_last {line : List Char} (hline : '\n' ∉ line) :
    splitLine (utf8Bytes (String.ofList line)) = (utf8Bytes (String.ofList line), []) := by
  have hdrop : (utf8Bytes (String.ofList line)).dropWhile (· != lineFeed) = [] :=
    List.dropWhile_eq_nil_iff.2 (bne_lineFeed (lineFeed_not_mem_utf8Bytes hline))
  rw [splitLine, hdrop]

/-- A line feed is cut off with one carriage return in front of it. -/
private theorem stripLineEnd_newline (line : List Char) :
    stripLineEnd (line ++ ['\n']) = dropReturn line := by
  induction line using List.reverseRecOn with
  | nil => rfl
  | append_singleton line c _ =>
    -- reversed, the line feed comes first and `c` behind it
    have hreverse : (line ++ [c] ++ ['\n']).reverse = '\n' :: c :: line.reverse := by simp
    by_cases hc : c = '\r'
    · subst hc
      rw [stripLineEnd, hreverse, dropReturn]
      simp
    · rw [stripLineEnd, hreverse, dropReturn]
      simp [hc]

/-- Without a line feed at its end, a line stays as it is. -/
private theorem stripLineEnd_last {line : List Char} (hline : '\n' ∉ line) :
    stripLineEnd line = line := by
  -- so the patterns with a line feed do not match
  have hreverse : ∀ rest, line.reverse ≠ '\n' :: rest := by
    intro rest h
    refine hline (List.mem_reverse.1 ?_)
    rw [h]
    exact List.mem_cons_self
  unfold stripLineEnd
  split
  · next h => exact absurd h (hreverse _)
  · next h => exact absurd h (hreverse _)
  · rfl

/-- A text behind a prompt, which is written to a sink without limit. -/
def ofText (text : List Char) (prompt : String) (written : List UInt8) : Prompted :=
  ⟨utf8Bytes (String.ofList text), prompt, ⟨written, none⟩⟩

/-- At the end of the text the prompt is written, and the input has ended. -/
theorem readLine_nil (prompt : String) (written : List UInt8) :
    LineSource.readLine (ofText [] prompt written) =
      (.ended, ofText [] prompt (written ++ utf8Bytes prompt)) := by
  have hunread : (utf8Bytes (String.ofList [])).isEmpty = true := rfl
  show readLine (ofText [] prompt written) = _
  simp only [readLine, ofText, Sink.write_unlimited]
  exact if_pos hunread

/-- Reading bytes that are not used up, once the prompt has been written. -/
private theorem readLine_of_ne_nil {text : List Char} (hne : text ≠ []) (prompt : String)
    (written : List UInt8) {line more : List Char}
    (hsplit : splitLine (utf8Bytes (String.ofList text)) =
      (utf8Bytes (String.ofList line), utf8Bytes (String.ofList more))) :
    LineSource.readLine (ofText text prompt written) =
      (.line (stripLineEnd line), ofText more prompt (written ++ utf8Bytes prompt)) := by
  -- the bytes of the text are not used up, since each character has some
  have hunread : ¬ (utf8Bytes (String.ofList text)).isEmpty = true := by
    rw [List.isEmpty_iff]
    exact utf8Bytes_ne_nil hne
  show readLine (ofText text prompt written) = _
  simp only [readLine, ofText, Sink.write_unlimited, if_neg hunread, hsplit, decode?_utf8Bytes]

/-- The last line is read as it is, to the end of the text. -/
theorem readLine_last {line : List Char} (hne : line ≠ []) (hline : '\n' ∉ line)
    (prompt : String) (written : List UInt8) :
    LineSource.readLine (ofText line prompt written) =
      (.line line, ofText [] prompt (written ++ utf8Bytes prompt)) := by
  have hsplit : splitLine (utf8Bytes (String.ofList line)) =
      (utf8Bytes (String.ofList line), utf8Bytes (String.ofList [])) := splitLine_last hline
  rw [readLine_of_ne_nil hne prompt written hsplit, stripLineEnd_last hline]

/-- A line is read with its end, and what is behind it is left. -/
theorem readLine_newline {front : List Char} (hfront : '\n' ∉ front) (more : List Char)
    (prompt : String) (written : List UInt8) :
    LineSource.readLine (ofText (front ++ '\n' :: more) prompt written) =
      (.line (dropReturn front), ofText more prompt (written ++ utf8Bytes prompt)) := by
  rw [readLine_of_ne_nil (by simp) prompt written (splitLine_newline hfront more),
    stripLineEnd_newline]

end Prompted

end DeskCalc
