import Mathlib

/-!
# Self-describing values

A serialized value is a tree of integers, texts, arrays and objects.  A codec writes a value as a
tree and reads a tree back: a record as an object with one entry for each field, an enumeration
under the name of its variant.  Reading ignores unknown entries, refuses a repeated one, and takes
an array for the fields of a record in order.
-/

namespace Serde

variable {α β : Type}

/-- A tree of values.  A number is an integer. -/
inductive Json
  | null
  | bool (value : Bool)
  | num (value : ℤ)
  | str (text : String)
  | arr (items : List Json)
  | obj (entries : List (String × Json))

/-- Why a tree was not read. -/
inductive DecodeError
  | invalidType
  | invalidValue
  | invalidLength
  | missingField (name : String)
  | duplicateField (name : String)
  | unknownVariant (name : String)
  | custom (text : String)
  deriving DecidableEq

/-- How a value is written as a tree, and read back. -/
structure Codec (α : Type) where
  serialize : α → Json
  deserialize : Json → Except DecodeError α

namespace Codec

/-- Every value is read back from its tree. -/
def Faithful (codec : Codec α) : Prop :=
  ∀ value, codec.deserialize (codec.serialize value) = .ok value

/-! ## Plain values -/

/-- A truth value. -/
def boolean : Codec Bool where
  serialize := .bool
  deserialize
    | .bool value => .ok value
    | _ => .error .invalidType

theorem boolean_faithful : boolean.Faithful := fun _ => rfl

/-- An unsigned machine integer, as a number. -/
def unsigned (width : ℕ) : Codec (BitVec width) where
  serialize value := .num value.toNat
  deserialize
    | .num value =>
        if 0 ≤ value ∧ value < 2 ^ width then .ok (BitVec.ofInt width value)
        else .error .invalidValue
    | _ => .error .invalidType

theorem unsigned_faithful {width : ℕ} : (unsigned width).Faithful := by
  intro value
  have within : (0 : ℤ) ≤ value.toNat ∧ (value.toNat : ℤ) < 2 ^ width :=
    ⟨Int.natCast_nonneg _, by exact_mod_cast value.isLt⟩
  simp only [unsigned, within, and_self, if_true, BitVec.ofInt_natCast, BitVec.ofNat_toNat,
    BitVec.setWidth_eq]

/-- A value which is printed to a text and parsed from it. -/
def text (print : α → String) (parse : String → Except String α) : Codec α where
  serialize value := .str (print value)
  deserialize
    | .str text => (parse text).mapError .custom
    | _ => .error .invalidType

theorem text_faithful {print : α → String} {parse : String → Except String α}
    (inverse : ∀ value, parse (print value) = .ok value) : (text print parse).Faithful := by
  intro value
  simp only [text, inverse]
  rfl

/-- A value which is written as another one. -/
def via (codec : Codec β) (view : α → β) (build : β → α) : Codec α where
  serialize value := codec.serialize (view value)
  deserialize json := build <$> codec.deserialize json

theorem via_faithful {codec : Codec β} {view : α → β} {build : β → α} (faithful : codec.Faithful)
    (inverse : ∀ value, build (view value) = value) : (codec.via view build).Faithful := by
  intro value
  simp only [via, faithful (view value)]
  exact congrArg _ (inverse value)

/-- A value or null. -/
def option (codec : Codec α) : Codec (Option α) where
  serialize
    | some value => codec.serialize value
    | none => .null
  deserialize
    | .null => .ok none
    | json => some <$> codec.deserialize json

/-- The codec never writes null. -/
def Present (codec : Codec α) : Prop := ∀ value, codec.serialize value ≠ .null

/-- An optional value is read back when a present one is never written as null. -/
theorem option_faithful {codec : Codec α} (faithful : codec.Faithful) (present : codec.Present) :
    codec.option.Faithful := by
  intro value
  cases value with
  | none => rfl
  | some value =>
      have read : some <$> codec.deserialize (codec.serialize value) = .ok (some value) := by
        rw [faithful value]
        rfl
      have written := present value
      simp only [option]
      exact read

/-- A sequence of values. -/
def list (codec : Codec α) : Codec (List α) where
  serialize values := .arr (values.map codec.serialize)
  deserialize
    | .arr items => items.mapM codec.deserialize
    | _ => .error .invalidType

theorem list_faithful {codec : Codec α} (faithful : codec.Faithful) : codec.list.Faithful := by
  intro values
  change (values.map codec.serialize).mapM codec.deserialize = _
  induction values with
  | nil => rfl
  | cons value values ih =>
      rw [List.map_cons, List.mapM_cons, faithful value, ih]
      rfl

end Codec

/-! ## Records -/

/-- The values of the entries under a name. -/
def valuesOf (entries : List (String × Json)) (name : String) : List Json :=
  (entries.filter (·.1 = name)).map Prod.snd

theorem valuesOf_append (front rest : List (String × Json)) (name : String) :
    valuesOf (front ++ rest) name = valuesOf front name ++ valuesOf rest name := by
  simp [valuesOf]

theorem valuesOf_eq_nil {entries : List (String × Json)} {name : String}
    (absent : name ∉ entries.map Prod.fst) : valuesOf entries name = [] := by
  rw [valuesOf, List.map_eq_nil_iff, List.filter_eq_nil_iff]
  intro entry member
  have mismatch : entry.1 ≠ name := fun same => absent (same ▸ List.mem_map_of_mem member)
  simpa using mismatch

/-- Fields of a record: their names, their entries, and how they are read from the values found
under each name. -/
structure Fields (α : Type) where
  names : List String
  write : α → List (String × Json)
  read : (String → List Json) → Except DecodeError α

namespace Fields

/-- The entries carry the names in order, and fields of distinct names are read back wherever
these names lead to their entries. -/
structure Lawful (fields : Fields α) : Prop where
  names_eq : ∀ value, (fields.write value).map Prod.fst = fields.names
  read_eq : fields.names.Nodup → ∀ value values,
    (∀ name ∈ fields.names, values name = valuesOf (fields.write value) name) →
      fields.read values = .ok value

/-- A field which has to be there. -/
def one (name : String) (codec : Codec α) : Fields α where
  names := [name]
  write value := [(name, codec.serialize value)]
  read values :=
    match values name with
    | [] => .error (.missingField name)
    | [json] => codec.deserialize json
    | _ => .error (.duplicateField name)

/-- A field which is absent when it is missing. -/
def optional (name : String) (codec : Codec α) : Fields (Option α) where
  names := [name]
  write value := [(name, codec.option.serialize value)]
  read values :=
    match values name with
    | [] => .ok none
    | [json] => codec.option.deserialize json
    | _ => .error (.duplicateField name)

/-- Fields followed by other fields. -/
def both (first : Fields α) (second : Fields β) : Fields (α × β) where
  names := first.names ++ second.names
  write value := first.write value.1 ++ second.write value.2
  read values := do
    let left ← first.read values
    let right ← second.read values
    return (left, right)

@[simp]
theorem names_one {name : String} {codec : Codec α} : (one name codec).names = [name] := rfl

@[simp]
theorem names_optional {name : String} {codec : Codec α} :
    (optional name codec).names = [name] := rfl

@[simp]
theorem names_both {first : Fields α} {second : Fields β} :
    (both first second).names = first.names ++ second.names := rfl

theorem one_lawful {name : String} {codec : Codec α} (faithful : codec.Faithful) :
    (one name codec).Lawful where
  names_eq _ := rfl
  read_eq _ value values found := by
    have found_one : values name = [codec.serialize value] := by
      rw [found name List.mem_cons_self]
      simp [valuesOf, one]
    simp only [one, found_one]
    exact faithful value

theorem optional_lawful {name : String} {codec : Codec α} (faithful : codec.Faithful)
    (present : codec.Present) : (optional name codec).Lawful where
  names_eq _ := rfl
  read_eq _ value values found := by
    have found_one : values name = [codec.option.serialize value] := by
      rw [found name List.mem_cons_self]
      simp [valuesOf, optional]
    simp only [optional, found_one]
    exact Codec.option_faithful faithful present value

theorem both_lawful {first : Fields α} {second : Fields β} (first_lawful : first.Lawful)
    (second_lawful : second.Lawful) : (both first second).Lawful where
  names_eq value := by
    simp only [both, List.map_append, first_lawful.names_eq, second_lawful.names_eq]
  read_eq distinct value values found := by
    obtain ⟨first_distinct, second_distinct, disjoint⟩ := List.nodup_append.mp distinct
    have first_read : first.read values = .ok value.1 := by
      refine first_lawful.read_eq first_distinct value.1 values fun name member => ?_
      have absent : name ∉ (second.write value.2).map Prod.fst := by
        rw [second_lawful.names_eq]
        exact fun other => disjoint name member name other rfl
      rw [found name (List.mem_append_left _ member), both, valuesOf_append,
        valuesOf_eq_nil absent, List.append_nil]
    have second_read : second.read values = .ok value.2 := by
      refine second_lawful.read_eq second_distinct value.2 values fun name member => ?_
      have absent : name ∉ (first.write value.1).map Prod.fst := by
        rw [first_lawful.names_eq]
        exact fun other => disjoint name other name member rfl
      rw [found name (List.mem_append_right _ member), both, valuesOf_append,
        valuesOf_eq_nil absent, List.nil_append]
    simp only [both, first_read, second_read]
    rfl

end Fields

/-- The entries of a record with these names. -/
def entriesOf (names : List String) : Json → Except DecodeError (List (String × Json))
  | .obj entries => .ok entries
  | .arr items =>
      if items.length = names.length then .ok (names.zip items) else .error .invalidLength
  | _ => .error .invalidType

namespace Codec

/-- A record with these fields. -/
def record (fields : Fields α) : Codec α where
  serialize value := .obj (fields.write value)
  deserialize json := do
    let entries ← entriesOf fields.names json
    fields.read (valuesOf entries)

/-- A record whose fields have distinct names is read back. -/
theorem record_faithful {fields : Fields α} (lawful : fields.Lawful)
    (distinct : fields.names.Nodup) : (record fields).Faithful :=
  fun value => lawful.read_eq distinct value _ fun _ _ => rfl

theorem record_present {fields : Fields α} : (record fields).Present := fun _ => nofun

end Codec

/-! ## Enumerations -/

/-- The name of a variant and its content: a text names a variant alone, an object of one entry
names it with its content. -/
def tagged : Json → Except DecodeError (String × Option Json)
  | .str name => .ok (name, none)
  | .obj [(name, content)] => .ok (name, some content)
  | .obj _ => .error .invalidLength
  | _ => .error .invalidType

/-- A variant without content. -/
def bare (value : α) : Option Json → Except DecodeError α
  | none | some .null => .ok value
  | some _ => .error .invalidType

/-- A variant with content. -/
def carrying (codec : Codec β) (build : β → α) : Option Json → Except DecodeError α
  | some content => build <$> codec.deserialize content
  | none => .error .invalidType

theorem carrying_faithful {codec : Codec β} {build : β → α} (faithful : codec.Faithful)
    (content : β) :
    carrying codec build (some (codec.serialize content)) = .ok (build content) := by
  rw [carrying, faithful content]
  rfl

namespace Codec

/-- An enumeration of variants without content. -/
def units (variants : List α) (name : α → String) : Codec α where
  serialize value := .str (name value)
  deserialize json := do
    let (tag, content) ← tagged json
    match variants.find? (name · = tag) with
    | some value => bare value content
    | none => .error (.unknownVariant tag)

/-- Listed variants of distinct names are read back. -/
theorem units_faithful {variants : List α} {name : α → String} (listed : ∀ value, value ∈ variants)
    (distinct : Function.Injective name) : (units variants name).Faithful := by
  intro value
  have found : variants.find? (name · = name value) = some value := by
    obtain ⟨other, found⟩ := Option.isSome_iff_exists.mp
      (List.find?_isSome (p := (name · = name value)) |>.mpr ⟨value, listed value, by simp⟩)
    have same : name other = name value := by simpa using List.find?_some found
    exact distinct same ▸ found
  simp only [units, tagged, bind, Except.bind, found]
  rfl

theorem units_present {variants : List α} {name : α → String} : (units variants name).Present :=
  fun _ => nofun

end Codec

end Serde
