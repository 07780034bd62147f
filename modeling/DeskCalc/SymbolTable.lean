/-! # Symbol table

The variables and their values, listed in the order in which the names first came up.  Reading a
name that is not listed lists it with the value zero; storing keeps the place of a listed name. -/

namespace DeskCalc

/-- The name that receives the value of a line without an assignment. -/
def defaultTarget : String := "it"

/-- Names with values, each name once, in the order of their first appearance. -/
structure SymbolTable where
  entries : List (String × Float)
  nodup : (entries.map Prod.fst).Nodup

namespace SymbolTable

/-- The table without variables. -/
def empty : SymbolTable := ⟨[], List.nodup_nil⟩

instance : Inhabited SymbolTable := ⟨empty⟩

/-- The names of the listed variables. -/
def names (t : SymbolTable) : List String :=
  t.entries.map Prod.fst

/-- The value of `name`, if it is listed. -/
def get? (t : SymbolTable) (name : String) : Option Float :=
  t.entries.lookup name

/-- Whether `name` is listed. -/
def contains (t : SymbolTable) (name : String) : Bool :=
  (t.get? name).isSome

/-- The number of listed variables. -/
def size (t : SymbolTable) : Nat :=
  t.entries.length

/-- Replaces the value of `name` where it is listed, or lists it at the end. -/
def store (name : String) (value : Float) : List (String × Float) → List (String × Float)
  | [] => [(name, value)]
  | (n, v) :: rest => if n = name then (n, value) :: rest else (n, v) :: store name value rest

/-- Storing keeps the names of a list that has the name and appends it otherwise. -/
theorem map_fst_store (name : String) (value : Float) (l : List (String × Float)) :
    (store name value l).map Prod.fst =
      if name ∈ l.map Prod.fst then l.map Prod.fst else l.map Prod.fst ++ [name] := by
  induction l with
  | nil => simp [store]
  | cons e rest ih =>
    obtain ⟨n, v⟩ := e
    by_cases h : n = name
    · simp [store, h]
    · have h' : name ≠ n := fun e => h e.symm
      simp only [store, h, if_false, List.map_cons, ih, List.mem_cons, h', false_or]
      split <;> simp

/-- Storing never lists a name twice. -/
theorem nodup_store {name : String} {value : Float} {l : List (String × Float)}
    (h : (l.map Prod.fst).Nodup) : ((store name value l).map Prod.fst).Nodup := by
  rw [map_fst_store]
  split
  · exact h
  · next hn =>
    refine List.nodup_append.2 ⟨h, by simp, ?_⟩
    intro a ha b hb
    rw [List.mem_singleton] at hb
    subst hb
    exact fun e => hn (e ▸ ha)

/-- Gives `name` a value. -/
def assign (t : SymbolTable) (name : String) (value : Float) : SymbolTable :=
  ⟨store name value t.entries, nodup_store t.nodup⟩

/-- Reads `name`, listing it with the value zero when it is new. -/
def fetch (t : SymbolTable) (name : String) : Float × SymbolTable :=
  match t.get? name with
  | some value => (value, t)
  | none => (0.0, t.assign name 0.0)

end SymbolTable

end DeskCalc
