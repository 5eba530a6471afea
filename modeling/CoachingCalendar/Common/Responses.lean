import Mathlib.Data.List.Basic

/-!
# Response bodies

`StripPasswordHashInterceptor`, which every response body passes through.
-/

namespace CoachingCalendar

/-- A body before it is serialized. The fields of an object are its own enumerable properties, in their order. -/
inductive Body where
  | null
  | bool (b : Bool)
  | num (n : Float)
  | str (s : String)
  | date (ms : Int)
  | arr (values : List Body)
  | obj (fields : List (String × Body))

namespace Body

mutual
def strip : Body → Body
  | .arr values => .arr (stripValues values)
  | .obj fields => .obj (stripFields fields)
  | value => value

def stripValues : List Body → List Body
  | [] => []
  | value :: values => strip value :: stripValues values

def stripFields : List (String × Body) → List (String × Body)
  | [] => []
  | (key, val) :: fields =>
      if key ≠ "passwordHash" then (key, strip val) :: stripFields fields else stripFields fields
end

/-! ## Paths -/

inductive Step where
  | key (k : String)
  | index (i : Nat)
  deriving DecidableEq, Repr

/-- The value at a path. -/
def at? : Body → List Step → Option Body
  | value, [] => some value
  | .arr values, .index i :: path => values[i]?.bind fun value => at? value path
  | .obj fields, .key k :: path => (fields.lookup k).bind fun value => at? value path
  | _, _ :: _ => none

/-- What a value is without the values inside it. -/
inductive Node where
  | null
  | bool (b : Bool)
  | num (n : Float)
  | str (s : String)
  | date (ms : Int)
  | arr (length : Nat)
  | obj

def node : Body → Node
  | .null => .null
  | .bool b => .bool b
  | .num n => .num n
  | .str s => .str s
  | .date ms => .date ms
  | .arr values => .arr values.length
  | .obj _ => .obj

/-- There is an object with the key somewhere in the value. -/
inductive HasKey (k : String) : Body → Prop
  | here {fields value} : (k, value) ∈ fields → HasKey k (.obj fields)
  | field {fields k' value} : (k', value) ∈ fields → HasKey k value → HasKey k (.obj fields)
  | value {values value} : value ∈ values → HasKey k value → HasKey k (.arr values)

mutual
/-- The two differ only in what is stored under `passwordHash`. -/
inductive SameButHash : Body → Body → Prop
  | refl {v} : SameButHash v v
  | arr {vs ws} : SameButHashValues vs ws → SameButHash (.arr vs) (.arr ws)
  | obj {fs gs} : SameButHashFields fs gs → SameButHash (.obj fs) (.obj gs)

inductive SameButHashValues : List Body → List Body → Prop
  | nil : SameButHashValues [] []
  | cons {v w vs ws} : SameButHash v w → SameButHashValues vs ws → SameButHashValues (v :: vs) (w :: ws)

inductive SameButHashFields : List (String × Body) → List (String × Body) → Prop
  | nil : SameButHashFields [] []
  | hash {v w fs gs} : SameButHashFields fs gs →
      SameButHashFields (("passwordHash", v) :: fs) (("passwordHash", w) :: gs)
  | cons {k v w fs gs} : SameButHash v w → SameButHashFields fs gs →
      SameButHashFields ((k, v) :: fs) ((k, w) :: gs)
end

/-! ## Arrays and objects -/

theorem stripValues_eq (values : List Body) : stripValues values = values.map strip := by
  induction values with
  | nil => rfl
  | cons value values ih => rw [stripValues, ih]; rfl

theorem stripFields_eq (fields : List (String × Body)) :
    stripFields fields = (fields.filter (·.1 ≠ "passwordHash")).map fun field => (field.1, strip field.2) := by
  induction fields with
  | nil => rfl
  | cons field fields ih =>
      rw [stripFields, ih]
      split <;> simp_all

theorem lookup_stripFields {k : String} (hk : k ≠ "passwordHash") (fields : List (String × Body)) :
    (stripFields fields).lookup k = (fields.lookup k).map strip := by
  induction fields with
  | nil => rfl
  | cons field fields ih =>
      obtain ⟨key, val⟩ := field
      rw [stripFields, List.lookup_cons]
      by_cases hkey : key = "passwordHash"
      · subst hkey
        rw [if_neg (by simp), ih, beq_eq_false_iff_ne.mpr hk]
      · rw [if_pos hkey, List.lookup_cons, ih]
        cases k == key <;> rfl

theorem mem_stripFields {k : String} {value : Body} {fields : List (String × Body)}
    (h : (k, value) ∈ stripFields fields) : k ≠ "passwordHash" ∧ ∃ value', value = strip value' := by
  rw [stripFields_eq, List.mem_map] at h
  obtain ⟨field, hf, he⟩ := h
  rw [List.mem_filter, decide_eq_true_eq] at hf
  cases he
  exact ⟨hf.2, _, rfl⟩

/-! ## What is left -/

theorem node_strip (v : Body) : v.strip.node = v.node := by
  cases v with
  | arr values => simp [strip, node, stripValues_eq]
  | _ => rfl

theorem at?_strip {path : List Step} (h : .key "passwordHash" ∉ path) (v : Body) :
    v.strip.at? path = (v.at? path).map strip := by
  induction path generalizing v with
  | nil => rfl
  | cons step path ih =>
      rw [List.mem_cons, not_or] at h
      cases v with
      | arr values =>
          cases step with
          | key k => rfl
          | index i =>
              simp only [strip, at?, stripValues_eq, List.getElem?_map]
              cases values[i]? with
              | none => rfl
              | some value => exact ih h.2 value
      | obj fields =>
          cases step with
          | index i => rfl
          | key k =>
              have hk : k ≠ "passwordHash" := fun he => h.1 (he ▸ rfl)
              simp only [strip, at?, lookup_stripFields hk]
              cases fields.lookup k with
              | none => rfl
              | some value => exact ih h.2 value
      | _ => cases step <;> rfl

theorem not_hasKey_strip (v : Body) : ¬ HasKey "passwordHash" v.strip := by
  intro h
  generalize hw : v.strip = w at h
  induction h generalizing v with
  | @here fields value hmem =>
      cases v with
      | obj fs =>
          cases hw
          exact (mem_stripFields hmem).1 rfl
      | _ => cases hw
  | @field fields k' value hmem _ ih =>
      cases v with
      | obj fs =>
          cases hw
          obtain ⟨-, value', rfl⟩ := mem_stripFields hmem
          exact ih value' rfl
      | _ => cases hw
  | @value values value hmem _ ih =>
      cases v with
      | arr vs =>
          cases hw
          rw [stripValues_eq, List.mem_map] at hmem
          obtain ⟨value', -, rfl⟩ := hmem
          exact ih value' rfl
      | _ => cases hw

mutual
theorem strip_strip : (v : Body) → v.strip.strip = v.strip
  | .arr values => congrArg Body.arr (stripValues_stripValues values)
  | .obj fields => congrArg Body.obj (stripFields_stripFields fields)
  | .null | .bool _ | .num _ | .str _ | .date _ => rfl

theorem stripValues_stripValues : (values : List Body) → stripValues (stripValues values) = stripValues values
  | [] => rfl
  | value :: values => by rw [stripValues, stripValues, strip_strip value, stripValues_stripValues values]

theorem stripFields_stripFields :
    (fields : List (String × Body)) → stripFields (stripFields fields) = stripFields fields
  | [] => rfl
  | (key, val) :: fields => by
      rw [stripFields]
      split
      · rename_i hkey
        rw [stripFields, if_pos hkey, strip_strip val, stripFields_stripFields fields]
      · exact stripFields_stripFields fields
end

mutual
theorem SameButHash.strip_eq : {v w : Body} → SameButHash v w → v.strip = w.strip
  | _, _, .refl => rfl
  | _, _, .arr h => congrArg Body.arr h.strip_eq
  | _, _, .obj h => congrArg Body.obj h.strip_eq

theorem SameButHashValues.strip_eq :
    {vs ws : List Body} → SameButHashValues vs ws → stripValues vs = stripValues ws
  | _, _, .nil => rfl
  | _, _, .cons h hs => by rw [stripValues, stripValues, h.strip_eq, hs.strip_eq]

theorem SameButHashFields.strip_eq :
    {fs gs : List (String × Body)} → SameButHashFields fs gs → stripFields fs = stripFields gs
  | _, _, .nil => rfl
  | _, _, .hash hs => hs.strip_eq
  | _, _, .cons h hs => by rw [stripFields, stripFields, h.strip_eq, hs.strip_eq]
end

/-- A stripped body has no password hash, agrees with the body wherever no path goes through a hash, stays as it is when
it is stripped again, and does not tell what the hashes were. -/
theorem strip_passwordHash (body : Body) :
    ¬ HasKey "passwordHash" body.strip ∧
    (∀ path, .key "passwordHash" ∉ path → (body.strip.at? path).map node = (body.at? path).map node) ∧
    body.strip.strip = body.strip ∧
    ∀ body', SameButHash body body' → body.strip = body'.strip := by
  refine ⟨not_hasKey_strip body, fun path h => ?_, strip_strip body, fun _ h => h.strip_eq⟩
  rw [at?_strip h, Option.map_map]
  exact congrArg (Option.map · _) (funext node_strip)

end Body

end CoachingCalendar
