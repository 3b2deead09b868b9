import Mathlib.Data.Rat.Defs

/-!
# Library — Value

The dynamic values a JavaScript program reads from a database row or a request: what `unknown`
ranges over once functions and cycles are left out.  An absent property is the absence of a
value, not `null`; `big` is a bigint, as a client reads an integer no number can hold.
-/

namespace Runir

mutual

inductive Value where
  | null
  | bool (b : Bool)
  | num (q : ℚ)
  | big (n : Int)
  | str (s : String)
  | arr (xs : Values)
  | obj (fs : Fields)

inductive Values where
  | nil
  | cons (x : Value) (xs : Values)

/-- The properties of an object, in insertion order. -/
inductive Fields where
  | nil
  | cons (k : String) (x : Value) (fs : Fields)

end

deriving instance DecidableEq for Value, Values, Fields

instance : Inhabited Value := ⟨.null⟩

namespace Values

def toList : Values → List Value
  | .nil => []
  | .cons x xs => x :: xs.toList

def ofList : List Value → Values
  | [] => .nil
  | x :: xs => .cons x (ofList xs)

end Values

/-- `fs[k]`. -/
def Fields.get? (k : String) : Fields → Option Value
  | .nil => none
  | .cons k' x fs => if k' = k then some x else fs.get? k

/-- `Reflect.ownKeys(fs)`. -/
def Fields.keys : Fields → List String
  | .nil => []
  | .cons k _ fs => k :: fs.keys

/-- A property of an object that is left out when it has no value. -/
def Fields.consOption (k : String) (v : Option Value) (fs : Fields) : Fields :=
  match v with
  | none => fs
  | some v => .cons k v fs

theorem Fields.get?_cons (k k' : String) (x : Value) (fs : Fields) :
    (Fields.cons k x fs).get? k' = if k = k' then some x else fs.get? k' := rfl

theorem Fields.get?_consOption (k k' : String) (v : Option Value) (fs : Fields) :
    (fs.consOption k v).get? k' = if k = k' then v.or (fs.get? k') else fs.get? k' := by
  cases v with
  | none =>
      rw [consOption, Option.none_or]
      split
      · rfl
      · rfl
  | some x => rw [consOption, get?_cons, Option.some_or]

theorem Fields.keys_consOption (k : String) (v : Option Value) (fs : Fields) :
    (fs.consOption k v).keys = (v.map fun _ => k).toList ++ fs.keys := by
  cases v with
  | none => rfl
  | some x => rfl

/-- The properties of a list that have a value. -/
def Fields.ofEntries : List (String × Option Value) → Fields
  | [] => .nil
  | (k, v) :: es => (ofEntries es).consOption k v

variable {es : List (String × Option Value)}

theorem Fields.mem_keys_ofEntries {k : String} :
    k ∈ (ofEntries es).keys ↔ ∃ v, (k, some v) ∈ es := by
  induction es with
  | nil => simp [ofEntries, keys]
  | cons e es ih =>
      obtain ⟨k', v'⟩ := e
      rw [ofEntries, keys_consOption, List.mem_append, ih]
      cases v' <;> simp [exists_or, eq_comm]

theorem Fields.get?_ofEntries_of_ne {k : String}
    (h : k ∉ es.map Prod.fst) : (ofEntries es).get? k = none := by
  induction es with
  | nil => rfl
  | cons e es ih =>
      obtain ⟨hne, hrest⟩ := not_or.mp (mt List.mem_cons.mpr h)
      rw [ofEntries, get?_consOption, if_neg (Ne.symm hne), ih hrest]

/-- Of distinct properties each is read as it is listed. -/
theorem Fields.get?_ofEntries (h : (es.map Prod.fst).Nodup)
    {k : String} {v : Option Value} (hm : (k, v) ∈ es) : (ofEntries es).get? k = v := by
  induction es with
  | nil => cases hm
  | cons e es ih =>
      obtain ⟨k', v'⟩ := e
      obtain ⟨hk', hes⟩ := List.nodup_cons.mp h
      rw [ofEntries, get?_consOption]
      rcases List.mem_cons.mp hm with heq | hm
      · obtain ⟨rfl, rfl⟩ := Prod.mk.inj heq
        rw [if_pos rfl, get?_ofEntries_of_ne hk', Option.or_none]
      · have hne : k' ≠ k := fun heq => hk' (List.mem_map.mpr ⟨_, hm, heq.symm⟩)
        rw [if_neg hne, ih hes hm]

@[simp] theorem Values.toList_ofList (xs : List Value) : (Values.ofList xs).toList = xs := by
  induction xs with
  | nil => rfl
  | cons x xs ih => exact congrArg (x :: ·) ih

namespace Value

/-- `Boolean(v)`. -/
def truthy : Value → Bool
  | .null => false
  | .bool b => b
  | .num q => q ≠ 0
  | .big n => n ≠ 0
  | .str s => s ≠ ""
  | _ => true

/-- `typeof v === "string"`. -/
def str? : Value → Option String
  | .str s => some s
  | _ => none

/-- `typeof v === "boolean"`. -/
def bool? : Value → Option Bool
  | .bool b => some b
  | _ => none

/-- A number. -/
def num? : Value → Option ℚ
  | .num q => some q
  | _ => none

/-- The elements of an array. -/
def elements? : Value → Option (List Value)
  | .arr xs => some xs.toList
  | _ => none

/-- The properties of an object. -/
def record? : Value → Option Fields
  | .obj fs => some fs
  | _ => none

/-- `v[k]` on a non-null object. -/
def prop? (k : String) : Value → Option Value
  | .obj fs => fs.get? k
  | _ => none

/-- The strings of an array, other elements left out. -/
def strings? : Value → Option (List String)
  | .arr xs => some (xs.toList.filterMap str?)
  | _ => none

/-- An array of strings. -/
def ofStrings (ss : List String) : Value := .arr (.ofList (ss.map .str))

end Value

/-! ### Printing as JSON -/

mutual

/-- `JSON.stringify` prints every value but a bigint, and throws where it meets one. -/
def Value.printable : Value → Bool
  | .big _ => false
  | .arr xs => xs.printable
  | .obj fs => fs.printable
  | _ => true

def Values.printable : Values → Bool
  | .nil => true
  | .cons x xs => x.printable && xs.printable

def Fields.printable : Fields → Bool
  | .nil => true
  | .cons _ x fs => x.printable && fs.printable

end

end Runir
