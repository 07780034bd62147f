import DeskCalc.Proofs.Bindings
import Mathlib.Data.List.Induction

/-!
# What a table lists

A table of variables is used by reading, storing and looking names up, and by asking for their
number.  What it lists can be read off the operations alone: each name that was read or stored,
once, in the order in which the names first came up, with the value that was stored last.

## Key results

- `names_operate`, `value_operate`: what one operation does to the names and to the values
- `names_after`, `value_after`: the names and the values after any operations
- `after_lists_first_mentions`: the bindings, the answers, and what never changes
-/

namespace DeskCalc

namespace SymbolTable

/-- What a table is asked to do. -/
inductive Operation where
  | fetch (name : String)
  | assign (name : String) (value : Float)
  | get (name : String)
  | contains (name : String)
  | size

/-- What a table answers. -/
inductive Answer where
  | done
  | value (value : Float)
  | found (value? : Option Float)
  | listed (isListed : Bool)
  | count (n : Nat)

/-- Carries out an operation. -/
def operate (t : SymbolTable) : Operation → Answer × SymbolTable
  | .fetch name => (.value (t.fetch name).1, (t.fetch name).2)
  | .assign name value => (.done, t.assign name value)
  | .get name => (.found (t.get? name), t)
  | .contains name => (.listed (t.contains name), t)
  | .size => (.count t.size, t)

/-- The table after several operations on an empty one. -/
def after (ops : List Operation) : SymbolTable := ops.foldl (fun t op => (t.operate op).2) empty

/-! ## The reference -/

/-- The name that is read or stored. -/
def Operation.mentions? : Operation → Option String
  | fetch name => some name
  | assign name _ => some name
  | _ => none

/-- The value that is stored under `name`. -/
def Operation.stores? (name : String) : Operation → Option Float
  | assign n value => if n = name then some value else none
  | _ => none

/-- The names that were read or stored, as often as they were. -/
def mentions (ops : List Operation) : List String := ops.filterMap Operation.mentions?

/-- The names that were read or stored, each where it first came up. -/
def firstMentions (ops : List Operation) : List String := (mentions ops).eraseDups

/-- The value that was stored last under `name`, or zero if none was. -/
def lastValue (ops : List Operation) (name : String) : Float :=
  (ops.filterMap (Operation.stores? name)).getLast?.getD 0.0

/-- What a table answers after `ops`. -/
def answerAfter (ops : List Operation) : Operation → Answer
  | .fetch name => .value (lastValue ops name)
  | .assign _ _ => .done
  | .get name => .found (if name ∈ mentions ops then some (lastValue ops name) else none)
  | .contains name => .listed (decide (name ∈ mentions ops))
  | .size => .count (firstMentions ops).length

/-- Nothing is stored, and no name is read that has not come up before. -/
def Operation.OnlyLooks (ops : List Operation) : Operation → Prop
  | fetch name => name ∈ mentions ops
  | assign _ _ => False
  | _ => True

/-! ## One operation -/

/-- An operation lists the name that it reads or stores, behind the others. -/
theorem names_operate (t : SymbolTable) (op : Operation) :
    (t.operate op).2.names = t.names ++ op.mentions?.toList.filter (· ∉ t.names) := by
  cases op with
  | fetch name => exact t.names_touch name
  | assign name value => exact t.names_assign name value
  | _ => exact (List.append_nil _).symm

/-- No value changes but the one that is stored. -/
theorem value_operate (t : SymbolTable) (op : Operation) (name : String) :
    (t.operate op).2.value name = (op.stores? name).getD (t.value name) := by
  cases op with
  | fetch n => exact t.value_touch n name
  | assign n value =>
    show ((t.assign n value).get? name).getD 0.0 = _
    rw [get?_assign, Operation.stores?]
    by_cases h : n = name
    · rw [if_pos h, if_pos h.symm]
      rfl
    · rw [if_neg h, if_neg (Ne.symm h)]
      rfl
  | _ => rfl

/-! ## Any operations -/

/-- The last operation is done to the table behind the others. -/
private theorem after_append_singleton (ops : List Operation) (op : Operation) :
    after (ops ++ [op]) = ((after ops).operate op).2 :=
  List.foldl_concat ..

/-- Names come up in the order of the operations. -/
private theorem mentions_append (ops more : List Operation) :
    mentions (ops ++ more) = mentions ops ++ mentions more :=
  List.filterMap_append

/-- The names that are listed are those that came up. -/
private theorem mem_firstMentions {ops : List Operation} {name : String} :
    name ∈ firstMentions ops ↔ name ∈ mentions ops :=
  List.mem_eraseDups

/-- An operation adds the name that it mentions, if it is new. -/
private theorem firstMentions_append_singleton (ops : List Operation) (op : Operation) :
    firstMentions (ops ++ [op]) =
      firstMentions ops ++ op.mentions?.toList.filter (· ∉ firstMentions ops) := by
  have hmentions : mentions [op] = op.mentions?.toList := by
    rw [mentions, List.filterMap_cons]
    cases op.mentions? <;> rfl
  simp only [mem_firstMentions]
  rw [firstMentions, mentions_append, List.eraseDups_append, firstMentions, hmentions]
  cases op.mentions? with
  | none => rfl
  | some name =>
    by_cases h : name ∈ mentions ops
    · simp [List.cons_removeAll, h]
    · simp [List.cons_removeAll, h, List.eraseDups_cons]

/-- The table lists the names that came up, in the order in which they first did. -/
theorem names_after (ops : List Operation) : (after ops).names = firstMentions ops := by
  induction ops using List.reverseRecOn with
  | nil => rfl
  | append_singleton ops op ih =>
    rw [after_append_singleton, names_operate, ih, firstMentions_append_singleton]

/-- A name has the value that was stored last, or zero. -/
theorem value_after (ops : List Operation) (name : String) :
    (after ops).value name = lastValue ops name := by
  induction ops using List.reverseRecOn with
  | nil => rfl
  | append_singleton ops op ih =>
    rw [after_append_singleton, value_operate, ih]
    -- the last store decides, and it comes from the last operation that stored
    unfold lastValue
    rw [List.filterMap_append, List.getLast?_append]
    cases h : op.stores? name <;> simp [h]

/-- A name is found with its value if it came up, and not found otherwise. -/
private theorem get?_after (ops : List Operation) (name : String) :
    (after ops).get? name = if name ∈ mentions ops then some (lastValue ops name) else none := by
  -- a name is listed if it came up
  by_cases h : name ∈ mentions ops
  · have hname : name ∈ (after ops).names := by rwa [names_after, mem_firstMentions]
    rw [get?_of_mem hname, value_after, if_pos h]
  · have hname : name ∉ (after ops).names := by rwa [names_after, mem_firstMentions]
    rw [get?_eq_none_iff.2 hname, if_neg h]

/-- The answers are read off what was done before. -/
private theorem answer_after (ops : List Operation) (op : Operation) :
    ((after ops).operate op).1 = answerAfter ops op := by
  -- each operation reads what is known of the table: its values, its names or their number
  cases op with
  | fetch name =>
    show Answer.value ((after ops).fetch name).1 = _
    rw [fetch_eq, value_after]
    rfl
  | assign name value => rfl
  | get name =>
    show Answer.found ((after ops).get? name) = _
    rw [get?_after]
    rfl
  | contains name =>
    show Answer.listed ((after ops).get? name).isSome = _
    rw [get?_after, answerAfter]
    by_cases h : name ∈ mentions ops <;> simp [h]
  | size =>
    have hlength : (after ops).size = (after ops).names.length := (List.length_map _).symm
    show Answer.count (after ops).size = _
    rw [hlength, names_after]
    rfl

/-- Each name is listed once, and the names are listed in the order in which they first came up. -/
private theorem pairwise_firstMentions (ops : List Operation) :
    (firstMentions ops).Pairwise fun m n =>
      (mentions ops).idxOf m < (mentions ops).idxOf n := by
  induction ops using List.reverseRecOn with
  | nil => exact List.Pairwise.nil
  | append_singleton ops op ih =>
    -- the names listed so far keep their places among the names that came up
    have hold : ∀ n ∈ firstMentions ops,
        (mentions (ops ++ [op])).idxOf n = (mentions ops).idxOf n := by
      intro n hn
      rw [mentions_append, List.idxOf_append_of_mem (mem_firstMentions.1 hn)]
    rw [firstMentions_append_singleton, List.pairwise_append]
    refine ⟨ih.imp_of_mem fun hm hn hlt => ?_, ?_, ?_⟩
    · rwa [hold _ hm, hold _ hn]
    · cases op.mentions? with
      | none => exact List.Pairwise.nil
      | some name => exact (List.pairwise_singleton _ name).filter _
    · intro m hm n hn
      -- a name that is added had not come up before, so it comes behind all others
      have hnew : n ∉ mentions ops := by simpa [mem_firstMentions] using (List.mem_filter.1 hn).2
      rw [hold m hm, mentions_append, List.idxOf_append_of_notMem hnew]
      exact Nat.lt_add_right _ (List.idxOf_lt_length_of_mem (mem_firstMentions.1 hm))

/-- An operation that only looks leaves the table as it is. -/
private theorem operate_of_onlyLooks {ops : List Operation} {op : Operation}
    (h : op.OnlyLooks ops) :
    ((after ops).operate op).2 = after ops := by
  cases op with
  | fetch name =>
    exact touch_of_mem (by rw [names_after, mem_firstMentions]; exact h)
  | assign name value => exact h.elim
  | _ => rfl

/-- Whatever is done to an empty table, it lists the names that were read or stored, once each in
    the order in which they first came up, with the value that was stored last, or zero.  Its
    answers are read off that.  Looking names up, counting them, and reading one that is listed
    changes nothing; and no name is ever removed or moved. -/
theorem after_lists_first_mentions (ops : List Operation) :
    (after ops).entries = (firstMentions ops).map (fun name => (name, lastValue ops name)) ∧
    (∀ name, name ∈ firstMentions ops ↔ ∃ op ∈ ops, op.mentions? = some name) ∧
    ((firstMentions ops).Pairwise fun m n =>
      (mentions ops).idxOf m < (mentions ops).idxOf n) ∧
    (∀ op, ((after ops).operate op).1 = answerAfter ops op) ∧
    (∀ op, op.OnlyLooks ops → after (ops ++ [op]) = after ops) ∧
    ∀ more, (after ops).names <+: (after (ops ++ more)).names := by
  refine ⟨?_, ?_, pairwise_firstMentions ops, answer_after ops, ?_, ?_⟩
  · rw [entries_eq_map_names, names_after]
    simp only [value_after]
  · intro name
    rw [mem_firstMentions, mentions, List.mem_filterMap]
  · intro op hop
    rw [after_append_singleton, operate_of_onlyLooks hop]
  · intro more
    rw [names_after, names_after, firstMentions, firstMentions, mentions_append,
      List.eraseDups_append]
    exact List.prefix_append _ _

example : firstMentions [.fetch "y", .assign "x" 1.0, .get "z", .assign "y" 2.0, .fetch "x"] =
    ["y", "x"] := by
  decide

end SymbolTable

end DeskCalc
