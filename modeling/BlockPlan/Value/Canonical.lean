import BlockPlan.Value.Basic
import BlockPlan.Json.Basic

/-!
# The JSON form of a value

`Value.toJson` gives the one JSON form of an attribute value, or says why it has none:

* null, truth values, whole numbers and finite doubles stand for themselves; a double that
  is no number or infinite has no form (`notFinite`), nor has a whole number of more than
  `Numeral.digitLimit` digits (`longWhole`);
* text is kept, a high surrogate followed by a low one joined into one code point;
* lists and tuples become arrays;
* a map becomes an object: a text key stays, a whole number, double, truth value or null key
  becomes its JSON text, any other key has no form (`badKey`); of two keys with one text, the
  later value stands at the place of the earlier;
* a set or frozen set becomes an array of its elements sorted by the spaced ASCII JSON text of
  each element, in which doubles that are no number are allowed;
* bytes, dates and other objects have no form (`unsupported`);
* containers nested deeper than `depthLimit` have no form (`tooDeep`);
* a container that holds itself has no form (`circular`).

Keys are read before their values, map entries and list items in order, so the error given is
the first one met in that order; the sort keys of a set are all read before its elements.
-/

namespace BlockPlan

/-- Why a value has no JSON form. -/
inductive EncodeError where
  /-- A value of this kind has no JSON form. -/
  | unsupported (kind : String)
  /-- A map key of this kind has no JSON form. -/
  | badKey (kind : String)
  /-- A double that is no number, or infinite. -/
  | notFinite
  /-- Containers nested too deep. -/
  | tooDeep
  /-- A container met again inside itself. -/
  | circular
  /-- A whole number with too many digits to be written out. -/
  | longWhole
  deriving DecidableEq, Inhabited

/-- The message of an encoding failure. -/
def EncodeError.message : EncodeError → String
  | .unsupported k => s!"Object of type {k} is not JSON serializable"
  | .badKey k => s!"keys must be str, int, float, bool or None, not {k}"
  | .notFinite => "Out of range float values are not JSON compliant"
  | .tooDeep => "maximum recursion depth exceeded while encoding a JSON object"
  | .circular => "Circular reference detected"
  | .longWhole => Numeral.digitLimitMessage

/-- How many containers may nest inside one another. -/
def depthLimit : Nat := 500

/-- The JSON text of a map key; a double that is no number only when `lenient`. -/
def keyText (lenient : Bool) : Value → Except EncodeError Text
  | .str s => .ok s
  | .float x => if x.isFinite || lenient then .ok (Json.floatText x) else .error .notFinite
  | .bool b => .ok (if b then "true" else "false")
  | .null => .ok "null"
  | .int n => if Numeral.exceedsDigitLimit n then .error .longWhole else .ok (Json.intText n)
  | v => .error (.badKey v.typeName)

/-- The JSON form with at most `fuel` nested containers; doubles that are no number allowed
when `lenient`. -/
def Value.toJsonWithin (lenient : Bool) (fuel : Nat) (v : Value) : Except EncodeError Json :=
  match fuel, v with
  | _, .null => .ok .null
  | _, .bool b => .ok (.bool b)
  | _, .int n => if Numeral.exceedsDigitLimit n then .error .longWhole else .ok (.int n)
  | _, .float x => if x.isFinite || lenient then .ok (.float x) else .error .notFinite
  | _, .str s => .ok (.str s.fuse)
  | _, .bytes _ => .error (.unsupported "bytes")
  | _, .date _ => .error (.unsupported "date")
  | _, .stamp _ => .error (.unsupported "datetime")
  | _, .object k => .error (.unsupported k)
  | fuel, .knot _ body => toJsonWithin lenient fuel body
  | 0, _ => .error .tooDeep
  | _ + 1, .back _ => .error .circular
  | fuel + 1, .list xs => .arr <$> xs.mapM fun x => toJsonWithin lenient fuel x
  | fuel + 1, .tuple xs => .arr <$> xs.mapM fun x => toJsonWithin lenient fuel x
  | fuel + 1, .map kvs => do
    let step (acc : List (Text × Json)) (entry : Value × Value) := do
      let kt ← keyText lenient entry.1
      let j ← toJsonWithin lenient fuel entry.2
      pure (putEntry acc kt.fuse j)
    let fields ← kvs.foldlM step []
    pure (.obj fields)
  | fuel + 1, .set xs | fuel + 1, .frozenset xs => do
    let keyed ← xs.mapM fun x => do
      let j ← toJsonWithin true fuel x
      pure (Json.write Json.Style.spaced j, x)
    let sorted := keyed.mergeSort fun a b => Text.le a.1 b.1
    .arr <$> sorted.mapM fun (_, x) => toJsonWithin lenient fuel x
termination_by (fuel, sizeOf v)
decreasing_by
  all_goals first
    | exact Prod.Lex.left _ _ (by omega)
    | exact Prod.Lex.right _ (by simp only [Value.knot.sizeOf_spec]; omega)

-- The equations of `Value.toJsonWithin` are taken from its unfolding: Lean's own equation for
-- the branch of whole numbers would evaluate `Numeral.firstTooLong`.
@[simp] theorem Value.toJsonWithin_null (lenient : Bool) (fuel : Nat) :
    Value.null.toJsonWithin lenient fuel = .ok .null := by
  rw [Value.toJsonWithin.eq_def]

@[simp] theorem Value.toJsonWithin_bool (lenient : Bool) (fuel : Nat) (b : Bool) :
    (Value.bool b).toJsonWithin lenient fuel = .ok (.bool b) := by
  rw [Value.toJsonWithin.eq_def]

@[simp] theorem Value.toJsonWithin_float (lenient : Bool) (fuel : Nat) (x : Float) :
    (Value.float x).toJsonWithin lenient fuel =
      if x.isFinite || lenient then .ok (.float x) else .error .notFinite := by
  rw [Value.toJsonWithin.eq_def]

@[simp] theorem Value.toJsonWithin_str (lenient : Bool) (fuel : Nat) (s : Text) :
    (Value.str s).toJsonWithin lenient fuel = .ok (.str s.fuse) := by
  rw [Value.toJsonWithin.eq_def]

@[simp] theorem Value.toJsonWithin_bytes (lenient : Bool) (fuel : Nat) (d : List UInt8) :
    (Value.bytes d).toJsonWithin lenient fuel = .error (.unsupported "bytes") := by
  rw [Value.toJsonWithin.eq_def]

@[simp] theorem Value.toJsonWithin_stamp (lenient : Bool) (fuel : Nat) (s : String) :
    (Value.stamp s).toJsonWithin lenient fuel = .error (.unsupported "datetime") := by
  rw [Value.toJsonWithin.eq_def]

@[simp] theorem Value.toJsonWithin_knot (lenient : Bool) (fuel id : Nat) (body : Value) :
    (Value.knot id body).toJsonWithin lenient fuel = body.toJsonWithin lenient fuel := by
  rw [Value.toJsonWithin.eq_def]

@[simp] theorem Value.toJsonWithin_int (lenient : Bool) (fuel : Nat) (n : Int) :
    (Value.int n).toJsonWithin lenient fuel =
      if Numeral.exceedsDigitLimit n then .error .longWhole else .ok (.int n) := by
  rw [Value.toJsonWithin.eq_def]

@[simp] theorem Value.toJsonWithin_date (lenient : Bool) (fuel : Nat) (s : String) :
    (Value.date s).toJsonWithin lenient fuel = .error (.unsupported "date") := by
  rw [Value.toJsonWithin.eq_def]

@[simp] theorem Value.toJsonWithin_object (lenient : Bool) (fuel : Nat) (k : String) :
    (Value.object k).toJsonWithin lenient fuel = .error (.unsupported k) := by
  rw [Value.toJsonWithin.eq_def]

@[simp] theorem Value.toJsonWithin_list_zero (lenient : Bool) (xs : List Value) :
    (Value.list xs).toJsonWithin lenient 0 = .error .tooDeep := by
  rw [Value.toJsonWithin.eq_def]

@[simp] theorem Value.toJsonWithin_list_succ (lenient : Bool) (fuel : Nat) (xs : List Value) :
    (Value.list xs).toJsonWithin lenient (fuel + 1) =
      .arr <$> xs.mapM (Value.toJsonWithin lenient fuel) := by
  rw [Value.toJsonWithin.eq_def]

@[simp] theorem Value.toJsonWithin_back_zero (lenient : Bool) (id : Nat) :
    (Value.back id).toJsonWithin lenient 0 = .error .tooDeep := by
  rw [Value.toJsonWithin.eq_def]

@[simp] theorem Value.toJsonWithin_back_succ (lenient : Bool) (fuel id : Nat) :
    (Value.back id).toJsonWithin lenient (fuel + 1) = .error .circular := by
  rw [Value.toJsonWithin.eq_def]

@[simp] theorem Value.toJsonWithin_tuple_zero (lenient : Bool) (xs : List Value) :
    (Value.tuple xs).toJsonWithin lenient 0 = .error .tooDeep := by
  rw [Value.toJsonWithin.eq_def]

@[simp] theorem Value.toJsonWithin_tuple_succ (lenient : Bool) (fuel : Nat) (xs : List Value) :
    (Value.tuple xs).toJsonWithin lenient (fuel + 1) =
      .arr <$> xs.mapM (Value.toJsonWithin lenient fuel) := by
  rw [Value.toJsonWithin.eq_def]

@[simp] theorem Value.toJsonWithin_map_zero (lenient : Bool) (kvs : List (Value × Value)) :
    (Value.map kvs).toJsonWithin lenient 0 = .error .tooDeep := by
  rw [Value.toJsonWithin.eq_def]

/-- A map is encoded entry by entry: the key's text, then the value, put in place. -/
theorem Value.toJsonWithin_map_succ (lenient : Bool) (fuel : Nat) (kvs : List (Value × Value)) :
    (Value.map kvs).toJsonWithin lenient (fuel + 1) =
      .obj <$> kvs.foldlM (fun acc entry => do
        let kt ← keyText lenient entry.1
        let j ← entry.2.toJsonWithin lenient fuel
        pure (putEntry acc kt.fuse j)) [] := by
  rw [Value.toJsonWithin.eq_def]
  simp only [bind_pure_comp]

@[simp] theorem Value.toJsonWithin_set_zero (lenient : Bool) (xs : List Value) :
    (Value.set xs).toJsonWithin lenient 0 = .error .tooDeep := by
  rw [Value.toJsonWithin.eq_def]

@[simp] theorem Value.toJsonWithin_frozenset_zero (lenient : Bool) (xs : List Value) :
    (Value.frozenset xs).toJsonWithin lenient 0 = .error .tooDeep := by
  rw [Value.toJsonWithin.eq_def]

/-- A set is encoded in two passes: the sort keys of all its elements first, each element's
spaced ASCII JSON text with doubles that are no number allowed, then the elements in the
stable order of their keys. -/
theorem Value.toJsonWithin_set (lenient : Bool) (fuel : Nat) (xs : List Value) :
    (Value.set xs).toJsonWithin lenient (fuel + 1) =
      (xs.mapM fun x => (fun j => (Json.write .spaced j, x)) <$> x.toJsonWithin true fuel) >>=
        fun keyed => .arr <$> (keyed.mergeSort fun a b => Text.le a.1 b.1).mapM
          fun p => p.2.toJsonWithin lenient fuel := by
  rw [Value.toJsonWithin.eq_def]
  simp only [bind_pure_comp]

theorem Value.toJsonWithin_frozenset (lenient : Bool) (fuel : Nat) (xs : List Value) :
    (Value.frozenset xs).toJsonWithin lenient (fuel + 1) =
      (Value.set xs).toJsonWithin lenient (fuel + 1) := by
  rw [Value.toJsonWithin.eq_def, Value.toJsonWithin.eq_def]

def Value.toJson (v : Value) : Except EncodeError Json := v.toJsonWithin false depthLimit

mutual

/-- The value a JSON form stands for: arrays as lists, objects as maps with text keys. -/
def Json.toValue : Json → Value
  | .null => .null
  | .bool b => .bool b
  | .int n => .int n
  | .float x => .float x
  | .str s => .str s
  | .arr items => .list (Json.itemsToValues items)
  | .obj fields => .map (Json.fieldsToEntries fields)

def Json.itemsToValues : List Json → List Value
  | [] => []
  | j :: rest => j.toValue :: Json.itemsToValues rest

def Json.fieldsToEntries : List (Text × Json) → List (Value × Value)
  | [] => []
  | (k, j) :: rest => (.str k, j.toValue) :: Json.fieldsToEntries rest

end

end BlockPlan
