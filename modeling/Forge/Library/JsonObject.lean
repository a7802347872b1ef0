import Forge.Library.JsonDocument

/-! Objects as maps from keys to values: updates of one key, and equality of documents up to the
order of fields. -/

namespace Forge.Library.JsonDocument

def setField {β : Type} (key : String) (value : β) : List (String × β) → List (String × β)
  | [] => [(key, value)]
  | (head, first) :: rest =>
      if head = key then (key, value) :: rest else (head, first) :: setField key value rest

theorem lookup_entry {β : Type} (key head : String) (first : β) (rest : List (String × β)) :
    ((head, first) :: rest).lookup key = if key = head then some first else rest.lookup key := by
  rw [List.lookup_cons]
  by_cases same : key = head
  · simp [same]
  · have other : (key == head) = false := by simpa using same
    simp [other, same]

theorem lookup_setField {β : Type} (key other : String) (value : β)
    (fields : List (String × β)) :
    (setField key value fields).lookup other
      = if other = key then some value else fields.lookup other := by
  induction fields with
  | nil => rw [setField, lookup_entry]
  | cons field rest ih =>
      rcases field with ⟨head, first⟩
      rw [setField]
      split
      case isTrue there =>
          rw [lookup_entry, lookup_entry, there]
          split <;> rfl
      case isFalse there =>
          rw [lookup_entry, lookup_entry, ih]
          by_cases here : other = head
          · have away : other ≠ key := fun same => there (here.symm.trans same)
            rw [if_pos here, if_neg away, if_pos here]
          · rw [if_neg here, if_neg here]

theorem keys_firstByKey {β : Type} (fields : List (String × β)) :
    ((firstByKey fields).map Prod.fst).Nodup := by
  induction fields with
  | nil => simp [firstByKey]
  | cons field rest ih =>
      rw [firstByKey, List.map_cons, List.nodup_cons]
      refine ⟨fun taken => ?_, ih.sublist (List.filter_sublist.map _)⟩
      obtain ⟨entry, member, same⟩ := List.mem_map.1 taken
      have other := (List.mem_filter.1 member).2
      simp [same] at other

theorem firstByKey_of_nodup {β : Type} {fields : List (String × β)}
    (nodup : (fields.map Prod.fst).Nodup) : firstByKey fields = fields := by
  induction fields with
  | nil => rfl
  | cons field rest ih =>
      rw [List.map_cons, List.nodup_cons] at nodup
      rw [firstByKey, ih nodup.2, List.filter_eq_self.2]
      intro entry member
      have other : entry.1 ≠ field.1 := fun same =>
        nodup.1 (List.mem_map.2 ⟨entry, member, same⟩)
      simpa using other

theorem lookup_iff_mem {β : Type} {fields : List (String × β)} {key : String} {value : β}
    (nodup : (fields.map Prod.fst).Nodup) :
    fields.lookup key = some value ↔ (key, value) ∈ fields := by
  rw [← mem_firstByKey_iff, firstByKey_of_nodup nodup]

namespace Json

/-- `Map::insert`; a document that is no object stays as it is. -/
def insert : Json → String → Json → Json
  | .object fields, key, value => .object (setField key value fields)
  | other, _, _ => other

/-- `Map::entry(key).or_insert(value)`. -/
def orInsert (document : Json) (key : String) (value : Json) : Json :=
  if (document.get key).isSome then document else document.insert key value

def isObject : Json → Bool
  | .object _ => true
  | _ => false

@[simp] theorem isObject_insert (document : Json) (key : String) (value : Json) :
    (document.insert key value).isObject = document.isObject := by
  cases document <;> rfl

@[simp] theorem isObject_orInsert (document : Json) (key : String) (value : Json) :
    (document.orInsert key value).isObject = document.isObject := by
  rw [orInsert]
  split
  · rfl
  · exact isObject_insert document key value

theorem get_insert {document : Json} (object : document.isObject = true) (key other : String)
    (value : Json) :
    (document.insert key value).get other
      = if other = key then some value else document.get other := by
  cases document with
  | object fields => exact lookup_setField key other value fields
  | _ => cases object

theorem get_orInsert {document : Json} (object : document.isObject = true) (key other : String)
    (value : Json) :
    (document.orInsert key value).get other
      = if other = key then some ((document.get key).getD value) else document.get other := by
  rw [orInsert]
  split
  case isTrue present =>
      obtain ⟨stored, found⟩ := Option.isSome_iff_exists.1 present
      by_cases same : other = key
      · simp [same, found]
      · simp [same]
  case isFalse absent =>
      have missing : document.get key = none := by simpa using absent
      rw [get_insert object, missing]
      rfl

mutual

def canonical : Json → Json
  | .array items => .array (canonicalItems items)
  | .object fields =>
      .object ((firstByKey (canonicalFields fields)).insertionSort fun a b => keyLe a.1 b.1)
  | other => other

def canonicalItems : List Json → List Json
  | [] => []
  | item :: rest => canonical item :: canonicalItems rest

def canonicalFields : List (String × Json) → List (String × Json)
  | [] => []
  | (key, value) :: rest => (key, canonical value) :: canonicalFields rest

end

theorem lookup_canonicalFields (fields : List (String × Json)) (key : String) :
    (canonicalFields fields).lookup key = (fields.lookup key).map canonical := by
  induction fields with
  | nil => rfl
  | cons field rest ih =>
      rcases field with ⟨head, first⟩
      rw [canonicalFields, lookup_entry, lookup_entry, ih]
      split <;> rfl

theorem get_canonical (document : Json) (key : String) :
    document.canonical.get key = (document.get key).map canonical := by
  cases document with
  | object fields =>
      let entries := firstByKey (canonicalFields fields)
      let sorted := entries.insertionSort fun a b => keyLe a.1 b.1
      have perm : sorted.Perm entries := List.perm_insertionSort _ _
      have nodup : (sorted.map Prod.fst).Nodup :=
        (perm.map Prod.fst).nodup_iff.2 (keys_firstByKey _)
      have found : ∀ value, sorted.lookup key = some value
          ↔ (canonicalFields fields).lookup key = some value := by
        intro value
        rw [lookup_iff_mem nodup, perm.mem_iff, mem_firstByKey_iff]
      show sorted.lookup key = (fields.lookup key).map canonical
      rw [← lookup_canonicalFields]
      exact Option.ext found
  | _ => rfl

/-- A number as a `jsonb` column returns it. A whole float is a number of scale one; from
`10 ^ 16` on it is printed with an exponent, which the column reads as an integer. -/
def storedNumber (mantissa : Int) (scale : Nat) : Json :=
  let whole := mantissa / 10
  if scale = 1 ∧ mantissa % 10 = 0 ∧ 10 ^ 16 ≤ whole.natAbs ∧ -(2 : Int) ^ 63 ≤ whole
      ∧ whole < (2 : Int) ^ 64 then .number whole 0
  else .number mantissa scale

mutual

/-- A document as a `jsonb` column returns it. -/
def stored : Json → Json
  | .number mantissa scale => storedNumber mantissa scale
  | .array items => .array (storedItems items)
  | .object fields => .object (storedFields fields)
  | other => other

def storedItems : List Json → List Json
  | [] => []
  | item :: rest => stored item :: storedItems rest

def storedFields : List (String × Json) → List (String × Json)
  | [] => []
  | (key, value) :: rest => (key, stored value) :: storedFields rest

end

theorem lookup_storedFields (fields : List (String × Json)) (key : String) :
    (storedFields fields).lookup key = (fields.lookup key).map stored := by
  induction fields with
  | nil => rfl
  | cons field rest ih =>
      rcases field with ⟨head, first⟩
      rw [storedFields, lookup_entry, lookup_entry, ih]
      split <;> rfl

theorem get_stored (document : Json) (key : String) :
    document.stored.get key = (document.get key).map stored := by
  cases document with
  | object fields => exact lookup_storedFields fields key
  | number mantissa scale =>
      rw [stored, storedNumber]
      split <;> rfl
  | _ => rfl

@[simp] theorem isObject_stored (document : Json) : document.stored.isObject = document.isObject := by
  cases document with
  | number mantissa scale =>
      rw [stored, storedNumber]
      split <;> rfl
  | _ => rfl

mutual

def beq : Json → Json → Bool
  | .null, .null => true
  | .bool a, .bool b => a == b
  | .number m s, .number m' s' => m == m' && s == s'
  | .string a, .string b => a == b
  | .array items, .array items' => beqItems items items'
  | .object fields, .object fields' => beqFields fields fields'
  | _, _ => false

def beqItems : List Json → List Json → Bool
  | [], [] => true
  | item :: rest, item' :: rest' => beq item item' && beqItems rest rest'
  | _, _ => false

def beqFields : List (String × Json) → List (String × Json) → Bool
  | [], [] => true
  | (key, value) :: rest, (key', value') :: rest' =>
      key == key' && beq value value' && beqFields rest rest'
  | _, _ => false

end

mutual

theorem beq_iff : ∀ left right : Json, beq left right = true ↔ left = right
  | .array items, right => by
      cases right <;> simp [beq, beqItems_iff items]
  | .object fields, right => by
      cases right <;> simp [beq, beqFields_iff fields]
  | .null, right => by cases right <;> simp [beq]
  | .bool _, right => by cases right <;> simp [beq]
  | .number _ _, right => by cases right <;> simp [beq]
  | .string _, right => by cases right <;> simp [beq]

theorem beqItems_iff : ∀ left right : List Json, beqItems left right = true ↔ left = right
  | [], right => by cases right <;> simp [beqItems]
  | item :: rest, right => by
      cases right <;> simp [beqItems, beq_iff item, beqItems_iff rest]

theorem beqFields_iff :
    ∀ left right : List (String × Json), beqFields left right = true ↔ left = right
  | [], right => by cases right <;> simp [beqFields]
  | (key, value) :: rest, right => by
      cases right with
      | nil => simp [beqFields]
      | cons field rest' =>
          rcases field with ⟨key', value'⟩
          simp [beqFields, beq_iff value, beqFields_iff rest, and_assoc]

end

instance : DecidableEq Json := fun left right => decidable_of_iff _ (beq_iff left right)

/-- `Value` equality: objects are maps. -/
def same (left right : Json) : Bool :=
  left.canonical == right.canonical

@[simp] theorem same_refl (document : Json) : document.same document = true := by
  simp [same]

theorem get_of_same {left right : Json} (equal : left.same right = true) (key : String) :
    (left.get key).map canonical = (right.get key).map canonical := by
  rw [same, beq_iff_eq] at equal
  rw [← get_canonical, ← get_canonical, equal]

theorem keyLe_total (left right : String) :
    keyLe left right = true ∨ keyLe right left = true := by
  simp only [keyLe, Bool.or_eq_true, Bool.and_eq_true, beq_iff_eq, decide_eq_true_eq]
  rcases Nat.lt_trichotomy left.utf8ByteSize right.utf8ByteSize with shorter | same | longer
  · exact .inl (.inl shorter)
  · rcases String.le_total left right with below | above
    · exact .inl (.inr ⟨same, below⟩)
    · exact .inr (.inr ⟨same.symm, above⟩)
  · exact .inr (.inl longer)

theorem keyLe_trans {a b c : String} (first : keyLe a b = true) (second : keyLe b c = true) :
    keyLe a c = true := by
  simp only [keyLe, Bool.or_eq_true, Bool.and_eq_true, beq_iff_eq, decide_eq_true_eq] at *
  rcases first with shorter | ⟨same, below⟩
  · rcases second with shorter' | ⟨same', -⟩
    · exact .inl (by omega)
    · exact .inl (by omega)
  · rcases second with shorter' | ⟨same', below'⟩
    · exact .inl (by omega)
    · exact .inr ⟨same.trans same', String.le_trans below below'⟩

theorem keyLe_antisymm {left right : String} (below : keyLe left right = true)
    (above : keyLe right left = true) : left = right := by
  simp only [keyLe, Bool.or_eq_true, Bool.and_eq_true, beq_iff_eq, decide_eq_true_eq] at *
  rcases below with shorter | ⟨same, below⟩
  · omega
  · rcases above with shorter | ⟨-, above⟩
    · omega
    · exact String.le_antisymm below above

theorem insertionSort_eq_of_lookup {left right : List (String × Json)}
    (same : ∀ key, left.lookup key = right.lookup key) :
    (firstByKey left).insertionSort (fun a b => keyLe a.1 b.1)
      = (firstByKey right).insertionSort (fun a b => keyLe a.1 b.1) := by
  have entries : (firstByKey left).Perm (firstByKey right) := by
    refine (List.perm_ext_iff_of_nodup (keys_firstByKey left).of_map
      (keys_firstByKey right).of_map).2 ?_
    rintro ⟨key, value⟩
    rw [mem_firstByKey_iff, mem_firstByKey_iff, same]
  have perm : ((firstByKey left).insertionSort fun a b => keyLe a.1 b.1).Perm
      ((firstByKey right).insertionSort fun a b => keyLe a.1 b.1) :=
    (List.perm_insertionSort _ _).trans (entries.trans (List.perm_insertionSort _ _).symm)
  have total : Std.Total fun a b : String × Json => keyLe a.1 b.1 = true :=
    ⟨fun a b => keyLe_total a.1 b.1⟩
  have transitive : IsTrans (String × Json) fun a b => keyLe a.1 b.1 = true :=
    ⟨fun _ _ _ first second => keyLe_trans first second⟩
  refine perm.eq_of_pairwise ?_ (List.pairwise_insertionSort _ _) (List.pairwise_insertionSort _ _)
  rintro ⟨key, value⟩ ⟨key', value'⟩ here there below above
  obtain rfl : key = key' := keyLe_antisymm below above
  rw [(List.perm_insertionSort _ _).mem_iff, mem_firstByKey_iff] at here there
  rw [same, there] at here
  rw [Option.some.inj here]

theorem same_iff_get {left right : Json} (object : left.isObject = true)
    (object' : right.isObject = true) : left.same right = true ↔
      ∀ key, (left.get key).map canonical = (right.get key).map canonical := by
  constructor
  · exact fun equal => get_of_same equal
  · intro equal
    cases left with
    | object fields =>
        cases right with
        | object fields' =>
            rw [same, canonical, canonical, insertionSort_eq_of_lookup, beq_self_eq_true]
            intro key
            rw [lookup_canonicalFields, lookup_canonicalFields]
            exact equal key
        | _ => cases object'
    | _ => cases object

end Json

end Forge.Library.JsonDocument
