import Runir.Lib.Json
import Runir.Overlay.Merge

/-!
# Store — Promotion values

The values `src/storage/surreal/phase2-store.ts` reads of a row, and how it compares them.

* `canonicalPromotionMetadataValue`: a text for a value, none for one that has none.
* `samePromotionMetadataValue`: two values of one text, or a record id and its text.
* `normalizePromotionSupportIds`, `sameSupportIdSet`: the ids of supports, in any order.

How the driver prints dates and record ids is given.
-/

namespace Runir

mutual

/-- A value as the driver answers with it; `absent` is `undefined`, and a date counts
nanoseconds. -/
inductive PromotionValue where
  | absent
  | null
  | bool (b : Bool)
  | num (q : ℚ)
  | big (n : Int)
  | str (s : String)
  | date (ns : Int)
  | record (id : String)
  | arr (xs : PromotionValues)
  | obj (fs : PromotionFields)

inductive PromotionValues where
  | nil
  | cons (x : PromotionValue) (xs : PromotionValues)

inductive PromotionFields where
  | nil
  | cons (k : String) (x : PromotionValue) (fs : PromotionFields)

end

deriving instance DecidableEq for PromotionValue, PromotionValues, PromotionFields

namespace PromotionValues

def toList : PromotionValues → List PromotionValue
  | .nil => []
  | .cons x xs => x :: xs.toList

def ofList : List PromotionValue → PromotionValues
  | [] => .nil
  | x :: xs => .cons x (ofList xs)

@[simp] theorem toList_ofList (xs : List PromotionValue) : (ofList xs).toList = xs := by
  induction xs with
  | nil => rfl
  | cons x xs ih => rw [ofList, toList, ih]

end PromotionValues

namespace PromotionFields

def keys : PromotionFields → List String
  | .nil => []
  | .cons k _ fs => k :: fs.keys

def get? (k : String) : PromotionFields → Option PromotionValue
  | .nil => none
  | .cons k' x fs => if k' = k then some x else fs.get? k

end PromotionFields

namespace PromotionValue

/-- `value.id`, of an object that has one. -/
def id? : PromotionValue → Option PromotionValue
  | .record id => some (.str id)
  | .obj fs => fs.get? "id"
  | _ => none

def str? : PromotionValue → Option String
  | .str s => some s
  | _ => none

/-- `Array.isArray(value)`. -/
def arr? : PromotionValue → Option (List PromotionValue)
  | .arr xs => some xs.toList
  | _ => none

/-- `isPromotionRecordId`. -/
def isRecordId : PromotionValue → Bool
  | .record _ => true
  | .obj fs => decide (fs.keys = ["id"])
  | _ => false

/-- An array of texts. -/
def ofTexts (ids : List String) : PromotionValue := .arr (.ofList (ids.map .str))

end PromotionValue

/-! ### Ids -/

/-- The id in a text, but for one that is empty, too long or of several words. -/
def normalizeIdText (s : String) : Option String :=
  let normalized := Text.trim (stripTable s)
  if normalized = "" ∨ 256 < Text.length normalized ∨ normalized.toList.any Text.isSpace = true then none
  else some normalized

/-- `normalizePromotionSourceId`; a record may stand for its id twice over. -/
def normalizePromotionSourceId (source : PromotionValue) : Option String :=
  let inner (v : PromotionValue) : Option PromotionValue := if v.str?.isSome then some v else v.id?
  ((inner source).bind inner).bind fun v => v.str?.bind normalizeIdText

def normalizePromotionSupportIds (value : PromotionValue) : Option (List String) :=
  if value = .absent then some []
  else value.arr?.bind fun xs => (xs.mapM normalizePromotionSourceId).map distinct

def sameSupportIdSet (left : PromotionValue) (right : List String) : Bool :=
  left.arr?.isSome &&
    (normalizePromotionSupportIds left).any fun leftIds =>
      (normalizePromotionSupportIds (.ofTexts right)).any fun rightIds =>
        decide (leftIds.length = rightIds.length) && leftIds.all rightIds.contains

/-! ### Canonical texts -/

/-- How the driver prints what is no plain value. -/
structure PromotionDriver where
  numberText : ℚ → String
  dateText : Int → String
  recordText : String → String

section
variable (driver : PromotionDriver)

/-- `JSON.stringify` of an array of texts. -/
def jsonTexts (texts : List String) : String :=
  "[" ++ Text.join "," (texts.map fun s => String.ofList (Json.printString s)) ++ "]"

mutual

def canonicalPromotionMetadataValue : PromotionValue → Option String
  | .absent => some "<NONE>"
  | .null => some "<NULL>"
  | .str s => some s
  | .num q => some (driver.numberText q)
  | .bool b => some (if b then "true" else "false")
  | .big n => some (toString n)
  | .date ns => some (driver.dateText ns)
  | .record id => some (driver.recordText id)
  | .arr xs => (canonicalElements xs).map jsonTexts
  | .obj fs =>
      if "toJSON" ∈ fs.keys then none
      else if fs.keys = ["id"] then
        (normalizePromotionSourceId (.obj fs)).map fun id => "<record:" ++ id ++ ">"
      else
        (canonicalEntries fs).map fun entries =>
          "[" ++ Text.join "," ((entries.insertionSort fun a b => a.1 ≤ b.1).map fun e =>
            jsonTexts [e.1, e.2]) ++ "]"

def canonicalElements : PromotionValues → Option (List String)
  | .nil => some []
  | .cons x xs =>
      (canonicalPromotionMetadataValue x).bind fun text =>
        (canonicalElements xs).map (text :: ·)

def canonicalEntries : PromotionFields → Option (List (String × String))
  | .nil => some []
  | .cons k x fs =>
      (canonicalPromotionMetadataValue x).bind fun text =>
        (canonicalEntries fs).map ((k, text) :: ·)

end

def samePromotionMetadataValue (left right : PromotionValue) : Bool :=
  (canonicalPromotionMetadataValue driver left).any fun leftCanonical =>
    (canonicalPromotionMetadataValue driver right).any fun rightCanonical =>
      decide (leftCanonical = rightCanonical) ||
        (left.isRecordId && right.str?.isSome &&
          decide (normalizePromotionSourceId left = normalizePromotionSourceId right)) ||
        (right.isRecordId && left.str?.isSome &&
          decide (normalizePromotionSourceId right = normalizePromotionSourceId left))

end

/-! ### What is the same -/

section
variable {driver : PromotionDriver} {left right v : PromotionValue}

/-- A value that has a text. -/
def Printed (driver : PromotionDriver) (v : PromotionValue) : Prop :=
  (canonicalPromotionMetadataValue driver v).isSome = true

theorem same_self (h : Printed driver v) : samePromotionMetadataValue driver v v = true := by
  obtain ⟨text, htext⟩ := Option.isSome_iff_exists.mp h
  simp [samePromotionMetadataValue, htext]

theorem printed_of_same (h : samePromotionMetadataValue driver left right = true) :
    Printed driver left := by
  unfold samePromotionMetadataValue at h
  unfold Printed
  cases hleft : canonicalPromotionMetadataValue driver left with
  | none =>
      rw [hleft] at h
      cases h
  | some text => rfl

@[simp] theorem printed_str (s : String) : Printed driver (.str s) := by
  simp [Printed, canonicalPromotionMetadataValue]

@[simp] theorem printed_bool (b : Bool) : Printed driver (.bool b) := by
  simp [Printed, canonicalPromotionMetadataValue]

@[simp] theorem printed_absent : Printed driver .absent := by
  simp [Printed, canonicalPromotionMetadataValue]

@[simp] theorem printed_date (ns : Int) : Printed driver (.date ns) := by
  simp [Printed, canonicalPromotionMetadataValue]

end

end Runir
