import DeskCalc.SymbolTable
import Mathlib.Data.List.Basic

/-!
# Bindings after reading and storing

What a symbol table lists after a name is read or stored, and after several names are read one
after the other.

## Key results

- `entries_touchAll`: reading names appends those that are not listed, once each, with the value
  zero
- `entries_assign`: storing overwrites a listed name in its place and appends any other
- `value_touchAll`: reading names changes no value
- `entries_eq_map_names`: a table is its names, each with its value
- `assign_of_get?`, `touchAll_of_subset`: when storing and reading change nothing
- `keeps_touchAll`, `keeps_assign`: neither removes, moves or changes another binding
-/

namespace DeskCalc

namespace SymbolTable

/-- Gives `name` a value in a list of bindings: in its place, or at the end if it is not listed. -/
def overwrite (name : String) (value : Float) (entries : List (String × Float)) :
    List (String × Float) :=
  if name ∈ entries.map Prod.fst then entries.map fun e => if e.1 = name then (name, value) else e
  else entries ++ [(name, value)]

/-- The value that reading `name` gives. -/
def value (t : SymbolTable) (name : String) : Float := (t.get? name).getD 0.0

/-- The table after `name` has been read. -/
def touch (t : SymbolTable) (name : String) : SymbolTable := (t.fetch name).2

/-- The table after several names have been read. -/
def touchAll (t : SymbolTable) (names : List String) : SymbolTable := names.foldl touch t

/-- Reading no names changes nothing. -/
@[simp] theorem touchAll_nil (t : SymbolTable) : t.touchAll [] = t := rfl

/-- Names are read one after the other. -/
@[simp] theorem touchAll_append (t : SymbolTable) (ns ms : List String) :
    t.touchAll (ns ++ ms) = (t.touchAll ns).touchAll ms :=
  List.foldl_append

/-- Reading a list of one name reads the name. -/
@[simp] theorem touchAll_singleton (t : SymbolTable) (name : String) :
    t.touchAll [name] = t.touch name := rfl

/-! ## Looking names up -/

/-- A stored value is found under its name, and all other names are looked up as before. -/
private theorem lookup_store (name m : String) (value : Float) (l : List (String × Float)) :
    (store name value l).lookup m = if m = name then some value else l.lookup m := by
  induction l with
  | nil =>
    rw [store, List.lookup_cons]
    by_cases hm : m = name
    · simp [hm]
    · simp [hm, beq_false_of_ne hm]
  | cons e rest ih =>
    obtain ⟨n, v⟩ := e
    -- the place of `name` is here or behind; what stands elsewhere is not looked at
    by_cases hn : n = name
    · subst hn
      rw [store, if_pos rfl, List.lookup_cons, List.lookup_cons]
      by_cases hm : m = n
      · simp [hm]
      · simp [hm, beq_false_of_ne hm]
    · rw [store, if_neg hn, List.lookup_cons, List.lookup_cons, ih]
      by_cases hm : m = n
      · subst hm
        simp [hn]
      · simp [beq_false_of_ne hm]

/-- Storing gives one name its value. -/
theorem get?_assign (t : SymbolTable) (name m : String) (value : Float) :
    (t.assign name value).get? m = if m = name then some value else t.get? m :=
  lookup_store name m value t.entries

/-- A name that is not listed has no value. -/
theorem get?_eq_none_iff {t : SymbolTable} {name : String} :
    t.get? name = none ↔ name ∉ t.names := by
  rw [get?, names, List.lookup_eq_none_iff, List.mem_map]
  constructor
  · rintro h ⟨e, he, rfl⟩
    simpa using h e he
  · intro h e he
    rw [bne_iff_ne]
    rintro rfl
    exact h ⟨e, he, rfl⟩

/-- Fetching answers with the value and leaves the name listed. -/
theorem fetch_eq (t : SymbolTable) (name : String) : t.fetch name =
    (t.value name, t.touch name) := by
  unfold touch fetch value
  cases t.get? name <;> rfl

/-- Reading a listed name changes nothing. -/
theorem touch_of_mem {t : SymbolTable} {name : String} (h : name ∈ t.names) : t.touch name = t := by
  unfold touch fetch
  split
  · rfl
  · next hnone => exact absurd h (get?_eq_none_iff.1 hnone)

/-- Reading any other name stores zero under it. -/
theorem touch_of_not_mem {t : SymbolTable} {name : String} (h : name ∉ t.names) :
    t.touch name = t.assign name 0.0 := by
  unfold touch fetch
  rw [get?_eq_none_iff.2 h]

/-- Reading a name changes no value. -/
theorem value_touch (t : SymbolTable) (name m : String) : (t.touch name).value m = t.value m := by
  by_cases h : name ∈ t.names
  · rw [touch_of_mem h]
  · rw [touch_of_not_mem h, value, get?_assign]
    -- the name just listed has the value zero, which it was read with before
    by_cases hm : m = name
    · subst hm
      simp [value, get?_eq_none_iff.2 h]
    · rw [if_neg hm, value]

/-- Reading names changes no value. -/
theorem value_touchAll (t : SymbolTable) (names : List String) (m : String) :
    (t.touchAll names).value m = t.value m := by
  -- the other names are read from the table behind the first one
  induction names generalizing t with
  | nil => rfl
  | cons n names ih => exact (ih (t.touch n)).trans (value_touch t n m)

/-! ## The bindings after reading and storing -/

/-- In a list that names nothing twice, storing overwrites or appends. -/
private theorem store_eq_overwrite {name : String} {value : Float} {l : List (String × Float)}
    (h : (l.map Prod.fst).Nodup) : store name value l = overwrite name value l := by
  induction l with
  | nil => simp [store, overwrite]
  | cons e rest ih =>
    obtain ⟨n, v⟩ := e
    obtain ⟨hn, hrest⟩ := List.nodup_cons.1 h
    -- the name does not stand again behind its place, so nothing else is overwritten
    by_cases heq : n = name
    · subst heq
      have hkeep : rest.map (fun e => if e.1 = n then (n, value) else e) = rest := by
        conv_rhs => rw [← List.map_id rest]
        refine List.map_congr_left fun e he => ?_
        have hne : e.1 ≠ n := fun heq => hn (List.mem_map.2 ⟨e, he, heq⟩)
        rw [if_neg hne, id]
      simp [store, overwrite, hkeep]
    · have heq' : name ≠ n := Ne.symm heq
      rw [store, if_neg heq, ih hrest]
      simp only [overwrite, List.map_cons, List.mem_cons, heq', false_or, heq, if_false]
      split <;> rfl

/-- Storing overwrites a listed name in its place and appends any other. -/
theorem entries_assign (t : SymbolTable) (name : String) (value : Float) :
    (t.assign name value).entries = overwrite name value t.entries :=
  store_eq_overwrite t.nodup

/-- Reading a name that is not listed appends it with the value zero. -/
private theorem entries_touch_of_not_mem {t : SymbolTable} {name : String} (h : name ∉ t.names) :
    (t.touch name).entries = t.entries ++ [(name, 0.0)] := by
  rw [touch_of_not_mem h, entries_assign]
  exact if_neg h

/-- The bindings of `t` and then the names it lacks, once each in the order of first reading, with
    the value zero. -/
def vivified (t : SymbolTable) (names : List String) : List (String × Float) :=
  t.entries ++ ((names.filter (· ∉ t.names)).eraseDups.map fun n => (n, 0.0))

/-- Reading names appends those that are not listed. -/
theorem entries_touchAll (t : SymbolTable) (names : List String) :
    (t.touchAll names).entries = t.vivified names := by
  -- the names behind the first one find it listed, so they lack it no longer
  induction names generalizing t with
  | nil => simp [vivified]
  | cons n names ih =>
    have hcons : t.touchAll (n :: names) = (t.touch n).touchAll names := rfl
    rw [hcons, ih, vivified, vivified]
    by_cases h : n ∈ t.names
    · rw [touch_of_mem h, List.filter_cons_of_neg (by simpa using h)]
    · have hnames : (t.touch n).names = t.names ++ [n] := by
        rw [SymbolTable.names, entries_touch_of_not_mem h, List.map_append]
        rfl
      -- of the others, those that are left are neither listed nor the first one
      have hfilter : names.filter (· ∉ t.names ++ [n]) =
          (names.filter (· ∉ t.names)).filter fun m => !m == n := by
        rw [List.filter_filter]
        refine List.filter_congr fun m _ => ?_
        by_cases hm : m = n <;> simp [hm]
      rw [entries_touch_of_not_mem h, hnames, List.filter_cons_of_pos (by simpa using h),
        List.eraseDups_cons, hfilter, List.append_assoc, List.map_cons]
      rfl

/-! ## Names and values -/

/-- Where no name stands twice, each is found with its value. -/
private theorem lookup_of_mem {name : String} {value : Float} {l : List (String × Float)}
    (hnodup : (l.map Prod.fst).Nodup) (h : (name, value) ∈ l) : l.lookup name = some value := by
  induction l with
  | nil => cases h
  | cons e rest ih =>
    obtain ⟨hnot, hrest⟩ := List.nodup_cons.1 hnodup
    rw [List.lookup_cons]
    rcases List.mem_cons.1 h with rfl | h
    · simp
    · have hne : name ≠ e.1 := by
        rintro rfl
        exact hnot (List.mem_map.2 ⟨_, h, rfl⟩)
      rw [beq_false_of_ne hne]
      exact ih hrest h

/-- A table is its names, each with its value. -/
theorem entries_eq_map_names (t : SymbolTable) :
    t.entries = t.names.map fun name => (name, t.value name) := by
  rw [names, List.map_map]
  conv_lhs => rw [← List.map_id t.entries]
  refine List.map_congr_left fun e he => ?_
  have hget : t.get? e.1 = some e.2 := lookup_of_mem t.nodup he
  simp [value, hget]

/-- Tables that list the same names in the same order, with the same values, are the same. -/
private theorem eq_of_names_of_value {t t' : SymbolTable} (hnames : t.names = t'.names)
    (hvalue : ∀ n ∈ t.names, t.value n = t'.value n) : t = t' := by
  -- both tables are their names with these values
  have hentries : t.entries = t'.entries := by
    rw [entries_eq_map_names, entries_eq_map_names t', ← hnames]
    exact List.map_congr_left fun n hn => by rw [hvalue n hn]
  obtain ⟨entries, nodup⟩ := t
  obtain ⟨entries', nodup'⟩ := t'
  obtain rfl : entries = entries' := hentries
  rfl

/-- Storing lists the name, if it is not listed. -/
theorem names_assign (t : SymbolTable) (name : String) (value : Float) :
    (t.assign name value).names = t.names ++ [name].filter (· ∉ t.names) := by
  have hnames : (t.assign name value).names =
      if name ∈ t.names then t.names else t.names ++ [name] := map_fst_store name value t.entries
  by_cases h : name ∈ t.names <;> simp [hnames, h]

/-- Reading lists the name, if it is not listed. -/
theorem names_touch (t : SymbolTable) (name : String) :
    (t.touch name).names = t.names ++ [name].filter (· ∉ t.names) := by
  by_cases h : name ∈ t.names
  · simp [touch_of_mem h, h]
  · rw [touch_of_not_mem h, names_assign]

/-- Storing the value that a listed name has changes nothing. -/
theorem assign_of_get? {t : SymbolTable} {name : String} {v : Float} (h : t.get? name = some v) :
    t.assign name v = t := by
  have hmem : name ∈ t.names := by
    -- a name with a value is listed
    by_contra hnot
    rw [get?_eq_none_iff.2 hnot] at h
    cases h
  refine eq_of_names_of_value (by simp [names_assign, hmem]) fun n _ => ?_
  rw [value, get?_assign]
  split
  · next heq => rw [heq, value, h]
  · rfl

/-- Behind reading, the listed names are those listed before and those that were read. -/
theorem mem_names_touchAll {t : SymbolTable} {names : List String} {n : String} :
    n ∈ (t.touchAll names).names ↔ n ∈ t.names ∨ n ∈ names := by
  rw [SymbolTable.names, entries_touchAll, vivified, List.map_append, List.mem_append]
  -- a name that is listed stays so, any other must have been read
  by_cases h : n ∈ t.names
  · simp only [h, true_or, iff_true]
    exact Or.inl h
  · have hnot : n ∉ t.entries.map Prod.fst := h
    simp [hnot, h]

/-- Reading names that are listed changes nothing. -/
theorem touchAll_of_subset {t : SymbolTable} {names : List String}
    (h : ∀ n ∈ names, n ∈ t.names) : t.touchAll names = t := by
  -- the table is the same behind each of the names
  induction names with
  | nil => rfl
  | cons n names ih =>
    obtain ⟨hn, hnames⟩ := List.forall_mem_cons.1 h
    have hcons : t.touchAll (n :: names) = (t.touch n).touchAll names := rfl
    rw [hcons, touch_of_mem hn]
    exact ih hnames

/-! ## What reading and storing leave alone -/

/-- A listed name has its value. -/
theorem get?_of_mem {t : SymbolTable} {name : String} (h : name ∈ t.names) :
    t.get? name = some (t.value name) := by
  unfold value
  cases hget : t.get? name with
  | none => exact absurd h (get?_eq_none_iff.1 hget)
  | some v => rfl

/-- No name of `t` has been removed or moved in `t'`, and none but `target` has another value. -/
structure Keeps (target : String) (t t' : SymbolTable) : Prop where
  names : t.names <+: t'.names
  get? : ∀ m ∈ t.names, m ≠ target → t'.get? m = t.get? m

/-- Reading names neither removes, moves nor changes a binding. -/
theorem keeps_touchAll (target : String) (t : SymbolTable) (names : List String) :
    t.Keeps target (t.touchAll names) := by
  -- the names that were read come behind those that were listed
  have hnames : t.names <+: (t.touchAll names).names := by
    rw [SymbolTable.names, SymbolTable.names, entries_touchAll, vivified, List.map_append]
    exact List.prefix_append _ _
  refine ⟨hnames, fun m hm _ => ?_⟩
  rw [get?_of_mem hm, get?_of_mem (hnames.subset hm), value_touchAll]

/-- Storing neither removes nor moves a binding, and changes no other one. -/
theorem keeps_assign (t : SymbolTable) (name : String) (value : Float) :
    t.Keeps name (t.assign name value) := by
  refine ⟨?_, fun m _ hne => by rw [get?_assign, if_neg hne]⟩
  rw [SymbolTable.names, SymbolTable.names, assign, map_fst_store]
  split
  · exact List.prefix_rfl
  · exact List.prefix_append _ _

/-- What is kept twice is kept. -/
theorem Keeps.trans {target : String} {t t' t'' : SymbolTable} (h : t.Keeps target t')
    (h' : t'.Keeps target t'') : t.Keeps target t'' := by
  refine ⟨h.names.trans h'.names, fun m hm hne => ?_⟩
  rw [h'.get? m (h.names.subset hm) hne, h.get? m hm hne]

end SymbolTable

end DeskCalc
