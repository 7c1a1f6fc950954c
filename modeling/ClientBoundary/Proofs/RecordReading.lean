import ClientBoundary.Config.Reader
import ClientBoundary.Proofs.JsonText
import Mathlib.Data.List.Nodup
import Mathlib.Data.List.Perm.Basic
import Mathlib.Logic.Relation

/-! Records by their fields. A record is read member by member; what is read depends only on which
values stand under the names of its fields. -/
namespace ClientBoundary.Config

open Json (Draft)

variable {α : Type} {name : String} {members front back : List (Option String × Draft)}

def lookup (name : String) (members : List (Option String × Draft)) : Option Draft :=
  (members.find? (·.1 = some name)).map (·.2)

def occurrences (name : String) (members : List (Option String × Draft)) : Nat :=
  (members.map (·.1)).count (some name)

theorem lookup_cons (name : String) (member : Option String × Draft) :
    lookup name (member :: members) =
      if member.1 = some name then some member.2 else lookup name members := by
  rw [lookup, List.find?_cons]
  by_cases same : member.1 = some name <;> simp [same, lookup]

theorem occurrences_cons (name : String) (member : Option String × Draft) :
    occurrences name (member :: members) =
      (if member.1 = some name then 1 else 0) + occurrences name members := by
  simp [occurrences, List.count_cons, Nat.add_comm]

theorem occurrences_append : occurrences name (front ++ back) =
    occurrences name front + occurrences name back := by
  simp [occurrences]

theorem lookup_append : lookup name (front ++ back) = (lookup name front).or (lookup name back) := by
  simp only [lookup, List.find?_append]
  cases front.find? (·.1 = some name) <;> simp

theorem lookup_eq_none_iff : lookup name members = none ↔ ∀ draft, (some name, draft) ∉ members := by
  simp only [lookup, Option.map_eq_none_iff, List.find?_eq_none, decide_eq_true_eq, Prod.forall]
  exact ⟨fun other draft member => other _ draft member rfl,
    fun absent key draft member same => absent draft (same ▸ member)⟩

theorem lookup_eq_none_iff_occurrences : lookup name members = none ↔ occurrences name members = 0 := by
  rw [lookup_eq_none_iff, occurrences, List.count_eq_zero]
  simp

theorem mem_of_lookup {draft : Draft} (found : lookup name members = some draft) :
    (some name, draft) ∈ members := by
  obtain ⟨⟨key, value⟩, first, same⟩ := Option.map_eq_some_iff.mp found
  have key_eq : key = some name := by simpa using List.find?_some first
  subst key_eq same
  exact List.mem_of_find?_eq_some first

theorem lookup_of_mem {draft : Draft} (once : occurrences name members ≤ 1)
    (member : (some name, draft) ∈ members) : lookup name members = some draft := by
  obtain ⟨front, back, rfl⟩ := List.append_of_mem member
  rw [occurrences_append, occurrences_cons, if_pos rfl] at once
  have absent : lookup name front = none := lookup_eq_none_iff_occurrences.mpr (by omega)
  simp [lookup_append, lookup_cons, absent]

theorem lookup_perm {others : List (Option String × Draft)} (perm : members.Perm others)
    (once : occurrences name members ≤ 1) : lookup name others = lookup name members := by
  have still : occurrences name others ≤ 1 := by
    rwa [occurrences, ← (perm.map (·.1)).count_eq]
  cases found : lookup name members with
  | some draft => exact lookup_of_mem still (perm.subset (mem_of_lookup found))
  | none =>
    rw [lookup_eq_none_iff] at found ⊢
    exact fun draft member => found draft (perm.symm.subset member)

/-- Another value where one is related to it, and the same else. -/
def Kept (R : Draft → Draft → Prop) (entry entry' : Option Draft) : Prop :=
  entry' = entry ∨ ∃ draft draft', entry = some draft ∧ entry' = some draft' ∧ R draft draft'

theorem Kept.apply_eq {R : Draft → Draft → Prop} {entry entry' : Option Draft} (kept : Kept R entry entry')
    {β : Type} (view : Option Draft → β)
    (same : ∀ draft draft', entry = some draft → R draft draft' → view (some draft') = view (some draft)) :
    view entry' = view entry := by
  rcases kept with rfl | ⟨draft, draft', rfl, rfl, related⟩
  · rfl
  · exact same draft draft' rfl related

theorem view_eq_of_respelled {R : Draft → Draft → Prop} {entry entry' : Option Draft} {blank : Draft}
    (respelled : Kept R entry entry' ∨ (entry = none ∧ entry' = some blank))
    {β : Type} (view : Option Draft → β) (silent : view (some blank) = view none)
    (same : ∀ draft draft', entry = some draft → R draft draft' → view (some draft') = view (some draft)) :
    view entry' = view entry := by
  rcases respelled with kept | ⟨rfl, rfl⟩
  · exact kept.apply_eq view same
  · exact silent

theorem lookup_replace {R : Draft → Draft → Prop} {key : Option String} {draft draft' : Draft}
    (related : key = some name → R draft draft') :
    Kept R (lookup name (front ++ (key, draft) :: back)) (lookup name (front ++ (key, draft') :: back)) := by
  simp only [lookup_append, lookup_cons]
  cases lookup name front with
  | some value => exact .inl rfl
  | none =>
    by_cases same : key = some name
    · exact .inr ⟨draft, draft', by simp [same], by simp [same], related same⟩
    · exact .inl (by simp [same])

structure Field (α : Type) where
  name : String
  /-- The values that the field can have. -/
  Fits : Draft → Prop
  /-- What a value says. -/
  set : Draft → α → α
  /-- A value that says nothing. -/
  blank : Draft
  /-- Other notations of a value. -/
  Respells : Draft → Draft → Prop

structure Layout (α : Type) where
  fields : List (Field α)
  /-- Whether other members are let pass. -/
  isOpen : Bool

namespace Layout

variable (layout : Layout α)

def names : List String := layout.fields.map (·.name)

/-- The members of a record, also where it is written as an array. -/
def given : Draft → List (Option String × Draft)
  | .object members _ => members
  | .array items _ => (layout.names.map some).zip items
  | _ => []

def valueAt? (draft : Draft) (name : String) : Option Draft := lookup name (layout.given draft)

/-- Members that make a record: its fields, none of them twice and each with a value that it can
have. Other names may be given only if the record is open. -/
structure Admits (members : List (Option String × Draft)) : Prop where
  known : ∀ member ∈ members, ∃ name, member.1 = some name ∧ (name ∈ layout.names ∨ layout.isOpen = true)
  once : ∀ name ∈ layout.names, occurrences name members ≤ 1
  fits : ∀ field ∈ layout.fields, ∀ draft, (some field.name, draft) ∈ members → field.Fits draft

def HasShape : Draft → Prop
  | .object _ _ => True
  | .array items _ => items.length ≤ layout.fields.length
  | _ => False

/-- An object, or an array that is no longer than the list of fields. -/
def IsRecord (draft : Draft) : Prop := layout.HasShape draft ∧ layout.Admits (layout.given draft)

theorem occurrences_zip_le (names : List String) (items : List Draft) :
    occurrences name ((names.map some).zip items) ≤ names.count name := by
  induction names generalizing items with
  | nil => exact Nat.zero_le _
  | cons first names ih =>
    cases items with
    | nil => exact Nat.zero_le _
    | cons item items =>
      rw [List.map_cons, List.zip_cons_cons, occurrences_cons, List.count_cons, Nat.add_comm]
      simpa using ih items

def settle (fields : List (Field α)) (look : String → Option Draft) (value : α) : α :=
  fields.foldl (fun value field => (look field.name).elim value (field.set · value)) value

theorem settle_cons (field : Field α) (fields : List (Field α)) (look : String → Option Draft) (value : α) :
    settle (field :: fields) look value =
      settle fields look ((look field.name).elim value (field.set · value)) := rfl

theorem settle_congr {fields : List (Field α)} {look look' : String → Option Draft}
    (same : ∀ field ∈ fields, look field.name = look' field.name) (value : α) :
    settle fields look value = settle fields look' value := by
  induction fields generalizing value with
  | nil => rfl
  | cons field fields ih =>
    rw [List.forall_mem_cons] at same
    rw [settle_cons, settle_cons, same.1]
    exact ih same.2 _

theorem settle_none (fields : List (Field α)) (value : α) : settle fields (fun _ => none) value = value := by
  induction fields with
  | nil => rfl
  | cons field fields ih => exact ih

/-- The fields of a layout are told apart by their names and do not touch what the others say. -/
structure Lawful : Prop where
  distinct : layout.names.Nodup
  commute : layout.fields.Pairwise fun field other =>
    ∀ draft draft' value, field.set draft (other.set draft' value) = other.set draft' (field.set draft value)

/-- It does not matter when a field is read. -/
theorem settle_update {fields : List (Field α)} (distinct : (fields.map (·.name)).Nodup)
    (commute : fields.Pairwise fun field other => ∀ draft draft' value,
      field.set draft (other.set draft' value) = other.set draft' (field.set draft value))
    {look : String → Option Draft} {field : Field α} (member : field ∈ fields)
    (unread : look field.name = none) (draft : Draft) (value : α) :
    settle fields (fun name => if field.name = name then some draft else look name) value =
      settle fields look (field.set draft value) := by
  -- What comes before the field commutes with it, and behind it its name is not looked up again.
  induction fields generalizing value with
  | nil => cases member
  | cons first fields ih =>
    rw [List.map_cons, List.nodup_cons] at distinct
    rw [List.pairwise_cons] at commute
    rw [List.mem_cons] at member
    rw [settle_cons, settle_cons]
    rcases member with rfl | later
    · rw [if_pos rfl, unread]
      apply settle_congr
      intro other isOther
      have different : field.name ≠ other.name :=
        fun same => distinct.1 (same ▸ List.mem_map_of_mem isOther)
      exact if_neg different
    · have different : field.name ≠ first.name := by
        intro same
        exact distinct.1 (same ▸ List.mem_map_of_mem later)
      rw [if_neg different, ih distinct.2 commute.2 later]
      cases look first.name with
      | none => rfl
      | some other => simp only [Option.elim_some, commute.1 field later]

variable {layout}

theorem admits_nil (layout : Layout α) : layout.Admits [] :=
  ⟨by simp, fun _ _ => Nat.zero_le 1, by simp⟩

theorem field_of_name (lawful : layout.Lawful) {field other : Field α} (member : field ∈ layout.fields)
    (isOther : other ∈ layout.fields) (same : field.name = other.name) : field = other :=
  List.inj_on_of_nodup_map lawful.distinct member isOther same

theorem Admits.tail {member : Option String × Draft} (admits : layout.Admits (member :: members)) :
    layout.Admits members where
  known other isOther := admits.known other (List.mem_cons_of_mem _ isOther)
  once name isName := by
    have once := admits.once name isName
    rw [occurrences_cons] at once
    omega
  fits field isField value isValue := admits.fits field isField value (List.mem_cons_of_mem _ isValue)

theorem Admits.cons {key : String} {draft : Draft} (admits : layout.Admits members)
    (known : key ∈ layout.names ∨ layout.isOpen = true)
    (first : key ∈ layout.names → occurrences key members = 0)
    (fits : ∀ field ∈ layout.fields, field.name = key → field.Fits draft) :
    layout.Admits ((some key, draft) :: members) where
  known := List.forall_mem_cons.mpr ⟨⟨key, rfl, known⟩, admits.known⟩
  once name isName := by
    rw [occurrences_cons]
    by_cases same : key = name
    · subst same
      rw [if_pos rfl, first isName]
    · rw [if_neg (by simpa using same), Nat.zero_add]
      exact admits.once name isName
  fits field isField value isValue := by
    rcases List.mem_cons.mp isValue with here | later
    · obtain ⟨same, rfl⟩ := Prod.mk.inj here
      exact fits field isField (Option.some.inj same)
    · exact admits.fits field isField value later

theorem admits_cons_field (lawful : layout.Lawful) {field : Field α} (member : field ∈ layout.fields)
    (draft : Draft) : layout.Admits ((some field.name, draft) :: members) ↔
      layout.Admits members ∧ field.Fits draft ∧ occurrences field.name members = 0 := by
  have isName : field.name ∈ layout.names := List.mem_map_of_mem member
  constructor
  · intro admits
    have once := admits.once field.name isName
    rw [occurrences_cons, if_pos rfl] at once
    exact ⟨admits.tail, admits.fits field member draft List.mem_cons_self, by omega⟩
  · rintro ⟨admits, fits, first⟩
    refine admits.cons (.inl isName) (fun _ => first) fun other isOther same => ?_
    rwa [field_of_name lawful isOther member same]

theorem settle_cons_field (lawful : layout.Lawful) {field : Field α} (member : field ∈ layout.fields)
    (first : occurrences field.name members = 0) (draft : Draft) (value : α) :
    settle layout.fields (lookup · ((some field.name, draft) :: members)) value =
      settle layout.fields (lookup · members) (field.set draft value) := by
  rw [← settle_update lawful.distinct lawful.commute member
    (lookup_eq_none_iff_occurrences.mpr first) draft value]
  apply settle_congr
  intro other _
  simp [lookup_cons]

theorem admits_cons_other {key : String} (other : key ∉ layout.names) (draft : Draft) :
    layout.Admits ((some key, draft) :: members) ↔ layout.Admits members ∧ layout.isOpen = true := by
  constructor
  · intro admits
    obtain ⟨name, same, known⟩ := admits.known _ List.mem_cons_self
    obtain rfl : key = name := Option.some.inj same
    exact ⟨admits.tail, known.resolve_left other⟩
  · rintro ⟨admits, isOpen⟩
    refine admits.cons (.inr isOpen) (fun isName => absurd isName other) fun field isField same => ?_
    exact absurd (same ▸ List.mem_map_of_mem isField) other

theorem given_array (layout : Layout α) (items : List Draft) (fault : Option Json.Break) :
    layout.given (.array items fault) =
      (layout.fields.zip items).map fun pair => (some pair.1.name, pair.2) := by
  rw [given, names, List.map_map, List.zip_map_left]
  rfl

/-- In an array each field has its place, so that none is unknown and none is given twice. -/
theorem admits_array (lawful : layout.Lawful) {items : List Draft} {fault : Option Json.Break} :
    layout.Admits (layout.given (.array items fault)) ↔
      ∀ pair ∈ layout.fields.zip items, pair.1.Fits pair.2 := by
  rw [given_array]
  constructor
  · rintro admits ⟨field, draft⟩ isPair
    exact admits.fits field (List.of_mem_zip isPair).1 draft (List.mem_map_of_mem isPair)
  · intro fits
    refine ⟨?_, ?_, ?_⟩
    · intro member isMember
      obtain ⟨pair, isPair, rfl⟩ := List.mem_map.mp isMember
      exact ⟨_, rfl, .inl (List.mem_map_of_mem (List.of_mem_zip isPair).1)⟩
    · intro name _
      rw [← given_array layout items fault]
      exact (occurrences_zip_le _ _).trans (List.nodup_iff_count_le_one.mp lawful.distinct name)
    · intro field isField draft isMember
      obtain ⟨⟨other, _⟩, isPair, same⟩ := List.mem_map.mp isMember
      obtain ⟨sameName, rfl⟩ := Prod.mk.inj same
      obtain rfl := field_of_name lawful (List.of_mem_zip isPair).1 isField (Option.some.inj sameName)
      exact fits _ isPair

theorem settle_cons_other {key : String} (other : key ∉ layout.names) (draft : Draft) (value : α) :
    settle layout.fields (lookup · ((some key, draft) :: members)) value =
      settle layout.fields (lookup · members) value := by
  apply settle_congr
  intro field member
  have different : some key ≠ some field.name :=
    fun same => other (Option.some.inj same ▸ List.mem_map_of_mem member)
  rw [lookup_cons, if_neg different]

theorem IsRecord.fits {draft value : Draft} (isRecord : layout.IsRecord draft) {field : Field α}
    (isField : field ∈ layout.fields) (found : layout.valueAt? draft field.name = some value) :
    field.Fits value :=
  isRecord.2.fits field isField value (mem_of_lookup found)

theorem Admits.replace {key : Option String} {draft draft' : Draft}
    (admits : layout.Admits (front ++ (key, draft) :: back))
    (still : ∀ field ∈ layout.fields, key = some field.name → field.Fits draft → field.Fits draft') :
    layout.Admits (front ++ (key, draft') :: back) := by
  obtain ⟨known, once, fits⟩ := admits
  refine ⟨?_, ?_, ?_⟩
  · simpa only [List.forall_mem_append, List.forall_mem_cons] using known
  · simpa only [occurrences_append, occurrences_cons] using once
  · intro field isField value isValue
    have own := fits field isField
    simp only [List.mem_append, List.mem_cons] at own isValue
    rcases isValue with before | here | behind
    · exact own value (.inl before)
    · obtain ⟨rfl, rfl⟩ := Prod.mk.inj here
      exact still field isField rfl (own draft (.inr (.inl rfl)))
    · exact own value (.inr (.inr behind))

theorem exists_given_item {before behind : List Draft} {draft : Draft}
    (short : (before ++ draft :: behind).length ≤ layout.fields.length) (fault : Option Json.Break) :
    ∃ field ∈ layout.fields, layout.fields[before.length]? = some field ∧ ∃ front back, ∀ value,
      layout.given (.array (before ++ value :: behind) fault) = front ++ (some field.name, value) :: back := by
  rw [List.length_append, List.length_cons] at short
  have inside : before.length < layout.fields.length := by omega
  refine ⟨layout.fields.get ⟨before.length, inside⟩, List.get_mem _ _, by simp,
    ((layout.fields.take before.length).zip before).map fun pair => (some pair.1.name, pair.2),
    ((layout.fields.drop (before.length + 1)).zip behind).map fun pair => (some pair.1.name, pair.2), ?_⟩
  intro value
  have split : layout.fields = layout.fields.take before.length ++
      layout.fields.get ⟨before.length, inside⟩ :: layout.fields.drop (before.length + 1) := by
    simp
  rw [given_array]
  conv_lhs => rw [split]
  rw [List.zip_append (by simp; omega), List.zip_cons_cons, List.map_append, List.map_cons]

theorem IsRecord.replace_item (lawful : layout.Lawful) {before behind : List Draft} {draft draft' : Draft}
    {fault : Option Json.Break} (isRecord : layout.IsRecord (.array (before ++ draft :: behind) fault))
    (still : ∀ field ∈ layout.fields, layout.fields[before.length]? = some field → field.Fits draft →
      field.Fits draft') :
    layout.IsRecord (.array (before ++ draft' :: behind) fault) ∧
      ∀ (R : Draft → Draft → Prop), ∀ field ∈ layout.fields,
        (layout.fields[before.length]? = some field → R draft draft') →
          Kept R (layout.valueAt? (.array (before ++ draft :: behind) fault) field.name)
            (layout.valueAt? (.array (before ++ draft' :: behind) fault) field.name) := by
  obtain ⟨short, admits⟩ := isRecord
  obtain ⟨placed, isPlaced, place, front, back, given⟩ := exists_given_item short fault
  have sole {field : Field α} (isField : field ∈ layout.fields) (same : some placed.name = some field.name) :
      layout.fields[before.length]? = some field :=
    field_of_name lawful isPlaced isField (Option.some.inj same) ▸ place
  rw [given] at admits
  constructor
  · refine ⟨by simpa [HasShape] using short, ?_⟩
    rw [given]
    exact admits.replace fun field isField same => still field isField (sole isField same)
  · intro R field isField related
    rw [valueAt?, valueAt?, given, given]
    exact lookup_replace fun same => related (sole isField same)

end Layout

open Layout

/-- One object of a document has its members in another order. -/
inductive Permutes : Draft → Draft → Prop
  | here {members others : List (Option String × Draft)} {fault : Option Json.Break}
    (perm : members.Perm others) : Permutes (.object members fault) (.object others fault)
  | member {front back : List (Option String × Draft)} {key : Option String} {draft draft' : Draft}
    {fault : Option Json.Break} (inside : Permutes draft draft') :
    Permutes (.object (front ++ (key, draft) :: back) fault) (.object (front ++ (key, draft') :: back) fault)
  | item {front back : List Draft} {draft draft' : Draft} {fault : Option Json.Break}
    (inside : Permutes draft draft') :
    Permutes (.array (front ++ draft :: back) fault) (.array (front ++ draft' :: back) fault)

def Reordered : Draft → Draft → Prop := Relation.ReflTransGen Permutes

/-- A record is still one, and each of its fields has the value that it had, or that one with its
members in another order. -/
theorem Permutes.isRecord {layout : Layout α} (lawful : layout.Lawful) {draft draft' : Draft}
    (permutes : Permutes draft draft')
    (still : ∀ field ∈ layout.fields, ∀ value value', Permutes value value' → field.Fits value →
      field.Fits value') (isRecord : layout.IsRecord draft) :
    layout.IsRecord draft' ∧ ∀ field ∈ layout.fields,
      Kept Permutes (layout.valueAt? draft field.name) (layout.valueAt? draft' field.name) := by
  cases permutes with
  | here perm =>
    obtain ⟨known, once, fits⟩ := isRecord.2
    have counted (name : String) := (perm.map (·.1)).count_eq (some name)
    refine ⟨⟨trivial, fun member isMember => known member (perm.symm.subset isMember), ?_,
      fun field isField value isValue => fits field isField value (perm.symm.subset isValue)⟩, ?_⟩
    · intro name isName
      exact (counted name).symm.trans_le (once name isName)
    · intro field isField
      exact .inl (lookup_perm perm (once field.name (List.mem_map_of_mem isField)))
  | member inside =>
    refine ⟨⟨trivial, isRecord.2.replace fun field isField _ => still field isField _ _ inside⟩, ?_⟩
    exact fun _ _ => lookup_replace fun _ => inside
  | item inside =>
    obtain ⟨stays, entries⟩ := isRecord.replace_item lawful
      fun field isField _ => still field isField _ _ inside
    exact ⟨stays, fun field isField => entries Permutes field isField fun _ => inside⟩

/-- The fields of an object as an array: each at its place, with a value that says nothing where it
is not given. At the end those may be left out. -/
inductive InOrder (members : List (Option String × Draft)) : List (Field α) → List Draft → Prop
  | done {fields : List (Field α)} (absent : ∀ field ∈ fields, lookup field.name members = none) :
    InOrder members fields []
  | next {field : Field α} {fields : List (Field α)} {items : List Draft}
    (others : InOrder members fields items) :
    InOrder members (field :: fields) ((lookup field.name members).getD field.blank :: items)

/-- A record, or one inside of it, is written as an array instead of an object. -/
inductive Layout.Respells (layout : Layout α) : Draft → Draft → Prop
  | here {members : List (Option String × Draft)} {items : List Draft} {fault : Option Json.Break}
    (inOrder : InOrder members layout.fields items) : Respells layout (.object members fault) (.array items fault)
  | member {front back : List (Option String × Draft)} {field : Field α} {draft draft' : Draft}
    {fault : Option Json.Break} (isField : field ∈ layout.fields) (inside : field.Respells draft draft') :
    Respells layout (.object (front ++ (some field.name, draft) :: back) fault)
      (.object (front ++ (some field.name, draft') :: back) fault)
  | item {front back : List Draft} {field : Field α} {draft draft' : Draft} {fault : Option Json.Break}
    (place : layout.fields[front.length]? = some field) (inside : field.Respells draft draft') :
    Respells layout (.array (front ++ draft :: back) fault) (.array (front ++ draft' :: back) fault)

theorem InOrder.length_le {fields : List (Field α)} {items : List Draft}
    (inOrder : InOrder members fields items) : items.length ≤ fields.length := by
  induction inOrder with
  | done => exact Nat.zero_le _
  | next _ ih => exact Nat.succ_le_succ ih

theorem InOrder.eq_of_mem_zip {fields : List (Field α)} {items : List Draft}
    (inOrder : InOrder members fields items) {field : Field α} {item : Draft}
    (isPair : (field, item) ∈ fields.zip items) : item = (lookup field.name members).getD field.blank := by
  induction inOrder with
  | done => simp at isPair
  | next _ ih =>
    rw [List.zip_cons_cons, List.mem_cons] at isPair
    rcases isPair with here | later
    · obtain ⟨rfl, rfl⟩ := Prod.mk.inj here
      rfl
    · exact ih later

theorem InOrder.lookup_zip {fields : List (Field α)} {items : List Draft}
    (inOrder : InOrder members fields items) (distinct : (fields.map (·.name)).Nodup) {field : Field α}
    (isField : field ∈ fields) :
    let entry' := lookup field.name (((fields.map (·.name)).map some).zip items)
    entry' = lookup field.name members ∨ (lookup field.name members = none ∧ entry' = some field.blank) := by
  induction inOrder with
  | done absent =>
    rw [List.zip_nil_right, absent field isField]
    exact .inl rfl
  | @next first fields items _ ih =>
    rw [List.map_cons, List.nodup_cons] at distinct
    simp only [List.map_cons, List.zip_cons_cons, lookup_cons, Option.some.injEq]
    rcases List.mem_cons.mp isField with rfl | later
    · cases lookup field.name members <;> simp
    · have different : first.name ≠ field.name :=
        fun same => distinct.1 (same ▸ List.mem_map_of_mem later)
      rw [if_neg different]
      exact ih distinct.2 later

/-- A record is still one, and each of its fields has the value that it had, maybe in another
notation, or one that says nothing if it was not given. -/
theorem Layout.Respells.isRecord {layout : Layout α} (lawful : layout.Lawful) {draft draft' : Draft}
    (respells : layout.Respells draft draft')
    (blank : ∀ field ∈ layout.fields, field.Fits field.blank)
    (still : ∀ field ∈ layout.fields, ∀ value value', field.Respells value value' → field.Fits value →
      field.Fits value') (isRecord : layout.IsRecord draft) :
    layout.IsRecord draft' ∧ ∀ field ∈ layout.fields,
      Kept field.Respells (layout.valueAt? draft field.name) (layout.valueAt? draft' field.name) ∨
        (layout.valueAt? draft field.name = none ∧ layout.valueAt? draft' field.name = some field.blank) := by
  cases respells with
  | @here members items fault inOrder =>
    refine ⟨⟨inOrder.length_le, (admits_array lawful).mpr ?_⟩, ?_⟩
    · rintro ⟨field, item⟩ isPair
      have isField := (List.of_mem_zip isPair).1
      rw [inOrder.eq_of_mem_zip isPair]
      cases found : lookup field.name members with
      | none => exact blank field isField
      | some value => exact isRecord.2.fits field isField value (mem_of_lookup found)
    · intro field isField
      exact (inOrder.lookup_zip lawful.distinct isField).imp_left .inl
  | @member front back field value value' fault isField inside =>
    have sole {other : Field α} (isOther : other ∈ layout.fields)
        (same : some field.name = some other.name) : field = other :=
      field_of_name lawful isField isOther (Option.some.inj same)
    refine ⟨⟨trivial, isRecord.2.replace fun other isOther same fits => ?_⟩, fun other isOther => .inl ?_⟩
    · obtain rfl := sole isOther same
      exact still _ isField _ _ inside fits
    · exact lookup_replace fun same => sole isOther same ▸ inside
  | @item front back field value value' fault place inside =>
    have sole {other : Field α} (same : layout.fields[front.length]? = some other) : field = other :=
      Option.some.inj (place.symm.trans same)
    obtain ⟨stays, entries⟩ := isRecord.replace_item lawful fun other isOther same =>
      still other isOther _ _ (sole same ▸ inside)
    exact ⟨stays, fun other isOther => .inl (entries _ other isOther fun same => sole same ▸ inside)⟩

theorem bind_eq_ok {β : Type} {first : Reading α} {next : α → Reading β} {result : β} :
    (first >>= next) = .ok result ↔ ∃ value, first = .ok value ∧ next value = .ok result := by
  cases first <;> simp [bind, Except.bind]

namespace Record

def ReadsField (entry : String × (Draft → α → Reading α)) (field : Field α) : Prop :=
  entry.1 = field.name ∧ ∀ draft, draft.skipFault = none → ∀ value result,
    entry.2 draft value = .ok result ↔ field.Fits draft ∧ result = field.set draft value

structure Reads (record : Record α) (layout : Layout α) : Prop where
  lawful : layout.Lawful
  isOpen : record.isOpen = layout.isOpen
  fields : List.Forall₂ ReadsField record.fields layout.fields

theorem find?_cases {entries : List (String × (Draft → α → Reading α))} {fields : List (Field α)}
    (each : List.Forall₂ ReadsField entries fields) (key : String) :
    (∃ entry, ∃ field ∈ fields, entries.find? (·.1 = key) = some entry ∧ field.name = key ∧
      ReadsField entry field) ∨ (entries.find? (·.1 = key) = none ∧ key ∉ fields.map (·.name)) := by
  induction each with
  | nil => exact .inr ⟨rfl, List.not_mem_nil⟩
  | @cons entry field entries fields reads _ ih =>
    by_cases same : entry.1 = key
    · exact .inl ⟨entry, field, List.mem_cons_self, by simp [same], reads.1.symm.trans same, reads⟩
    · have further : (entry :: entries).find? (·.1 = key) = entries.find? (·.1 = key) := by
        simp [same]
      rw [further]
      rcases ih with ⟨found, other, member, first, found_eq, means⟩ | ⟨absent, unnamed⟩
      · exact .inl ⟨found, other, List.mem_cons_of_mem _ member, first, found_eq, means⟩
      · refine .inr ⟨absent, ?_⟩
        rw [List.map_cons, List.mem_cons, not_or]
        exact ⟨fun isKey => same (reads.1.trans isKey.symm), unnamed⟩

variable {record : Record α} {layout : Layout α}

theorem readMembers_unspelled (seen : List String) (draft : Draft) (value result : α) :
    record.readMembers seen ((none, draft) :: members) value ≠ .ok result := by
  intro read
  cases read

theorem Reads.readMembers_field (reads : record.Reads layout) {field : Field α}
    (member : field ∈ layout.fields) {draft : Draft} (whole : draft.skipFault = none) (seen : List String)
    (value result : α) :
    record.readMembers seen ((some field.name, draft) :: members) value = .ok result ↔
      field.name ∉ seen ∧ field.Fits draft ∧
        record.readMembers (field.name :: seen) members (field.set draft value) = .ok result := by
  rw [readMembers, keyText, pure_bind, field?]
  rcases find?_cases reads.fields field.name with
    ⟨entry, other, isOther, found, sameName, _, means⟩ | ⟨_, unnamed⟩
  · obtain rfl := field_of_name reads.lawful isOther member sameName
    simp only [found, Option.map_some, List.contains_iff_mem]
    by_cases again : other.name ∈ seen
    · simp [again, misfit]
    · rw [if_neg again, bind_eq_ok]
      constructor
      · rintro ⟨next, read, further⟩
        obtain ⟨fits, rfl⟩ := (means draft whole value next).mp read
        exact ⟨again, fits, further⟩
      · rintro ⟨_, fits, further⟩
        exact ⟨_, (means draft whole value _).mpr ⟨fits, rfl⟩, further⟩
  · exact absurd (List.mem_map_of_mem member) unnamed

theorem Reads.readMembers_other (reads : record.Reads layout) {key : String} (other : key ∉ layout.names)
    {draft : Draft} (whole : draft.skipFault = none) (seen : List String) (value result : α) :
    record.readMembers seen ((some key, draft) :: members) value = .ok result ↔
      layout.isOpen = true ∧ record.readMembers seen members value = .ok result := by
  rw [readMembers, keyText, pure_bind, field?]
  rcases find?_cases reads.fields key with ⟨_, field, isField, _, rfl, _⟩ | ⟨absent, _⟩
  · exact absurd (List.mem_map_of_mem isField) other
  · have passes : skip draft = pure () := by rw [skip, whole]
    simp only [absent, Option.map_none, reads.isOpen, passes, pure_bind]
    cases layout.isOpen <;> simp [misfit]

/-- Members are read exactly if the layout admits them and no field among them was seen before. -/
theorem Reads.readMembers_eq_ok (reads : record.Reads layout)
    (whole : Draft.skipFaultOfMembers members = none) (seen : List String) (value result : α) :
    record.readMembers seen members value = .ok result ↔
      (layout.Admits members ∧ ∀ name ∈ seen, name ∈ layout.names → occurrences name members = 0) ∧
        result = settle layout.fields (lookup · members) value := by
  -- Over the members: each field that is read joins those seen before, so that it must not come
  -- again.
  induction members generalizing seen value with
  | nil =>
    have same := settle_none layout.fields value
    simp only [readMembers, pure, Except.pure, Except.ok.injEq]
    constructor
    · rintro rfl
      exact ⟨⟨admits_nil layout, fun _ _ _ => rfl⟩, same.symm⟩
    · rintro ⟨_, rfl⟩
      exact same.symm
  | cons member rest ih =>
    obtain ⟨key, draft⟩ := member
    rw [Draft.skipFaultOfMembers, Option.or_eq_none_iff] at whole
    cases key with
    | none =>
      refine ⟨fun read => absurd read (readMembers_unspelled seen draft value result), ?_⟩
      rintro ⟨⟨admits, _⟩, _⟩
      obtain ⟨name, isName, _⟩ := admits.known _ List.mem_cons_self
      cases isName
    | some key =>
      have others (name : String) (different : name ≠ key) :
          occurrences name ((some key, draft) :: rest) = occurrences name rest := by
        rw [occurrences_cons, if_neg (by simpa using different.symm), Nat.zero_add]
      by_cases named : key ∈ layout.names
      · obtain ⟨field, member, rfl⟩ := List.mem_map.mp named
        rw [reads.readMembers_field member whole.1, ih whole.2, admits_cons_field reads.lawful member]
        constructor
        · rintro ⟨fresh, fits, ⟨admits, unseen⟩, rfl⟩
          have first := unseen field.name List.mem_cons_self named
          refine ⟨⟨⟨admits, fits, first⟩, fun name isSeen isName => ?_⟩,
            (settle_cons_field reads.lawful member first draft value).symm⟩
          rw [others name fun same => fresh (same ▸ isSeen)]
          exact unseen name (List.mem_cons_of_mem _ isSeen) isName
        · rintro ⟨⟨⟨admits, fits, first⟩, unseen⟩, rfl⟩
          have fresh : field.name ∉ seen := by
            intro again
            have none := unseen field.name again named
            rw [occurrences_cons, if_pos rfl] at none
            omega
          refine ⟨fresh, fits, ⟨admits, List.forall_mem_cons.mpr ⟨fun _ => first, ?_⟩⟩,
            settle_cons_field reads.lawful member first draft value⟩
          intro name isSeen isName
          rw [← others name fun same => fresh (same ▸ isSeen)]
          exact unseen name isSeen isName
      · rw [reads.readMembers_other named whole.1, ih whole.2, admits_cons_other named,
          settle_cons_other named]
        constructor
        · rintro ⟨isOpen, ⟨admits, unseen⟩, rfl⟩
          refine ⟨⟨⟨admits, isOpen⟩, fun name isSeen isName => ?_⟩, rfl⟩
          rw [others name fun same => named (same ▸ isName)]
          exact unseen name isSeen isName
        · rintro ⟨⟨⟨admits, isOpen⟩, unseen⟩, rfl⟩
          refine ⟨isOpen, ⟨admits, fun name isSeen isName => ?_⟩, rfl⟩
          rw [← others name fun same => named (same ▸ isName)]
          exact unseen name isSeen isName

theorem readItems_nil (entries : List (String × (Draft → α → Reading α))) (fields : List (Field α))
    (value result : α) : readItems entries [] none value = .ok result ↔
      result = settle fields (fun _ => none) value := by
  have read : readItems entries [] none value = .ok value := by
    cases entries <;> rfl
  rw [read, settle_none, Except.ok.injEq, eq_comm]

theorem readItems_eq_ok {entries : List (String × (Draft → α → Reading α))} {fields : List (Field α)}
    (each : List.Forall₂ ReadsField entries fields) (distinct : (fields.map (·.name)).Nodup)
    {items : List Draft} (whole : Draft.skipFaultOfItems items = none) (value result : α) :
    readItems entries items none value = .ok result ↔
      (items.length ≤ fields.length ∧ ∀ pair ∈ fields.zip items, pair.1.Fits pair.2) ∧
        result = settle fields (lookup · (((fields.map (·.name)).map some).zip items)) value := by
  induction each generalizing items value with
  | nil =>
    cases items with
    | nil => simp [readItems_nil _ [], lookup]
    | cons draft rest =>
      constructor
      · intro read
        cases read
      · rintro ⟨⟨short, _⟩, _⟩
        cases short
  | @cons entry field entries fields reads _ ih =>
    rw [List.map_cons, List.nodup_cons] at distinct
    cases items with
    | nil => simp [readItems_nil _ (field :: fields), lookup]
    | cons draft rest =>
      rw [Draft.skipFaultOfItems, Option.or_eq_none_iff] at whole
      have settled : settle (field :: fields)
          (lookup · ((((field :: fields).map (·.name)).map some).zip (draft :: rest))) value =
          settle fields (lookup · (((fields.map (·.name)).map some).zip rest)) (field.set draft value) := by
        rw [settle_cons, List.map_cons, List.map_cons, List.zip_cons_cons, lookup_cons, if_pos rfl]
        apply settle_congr
        intro other isOther
        have different : some field.name ≠ some other.name :=
          fun same => distinct.1 (Option.some.inj same ▸ List.mem_map_of_mem isOther)
        rw [lookup_cons, if_neg different]
      rw [readItems, bind_eq_ok, settled, List.zip_cons_cons, List.forall_mem_cons, List.length_cons,
        List.length_cons, Nat.add_le_add_iff_right]
      constructor
      · rintro ⟨next, read, further⟩
        obtain ⟨fits, rfl⟩ := (reads.2 draft whole.1 value next).mp read
        obtain ⟨⟨short, others⟩, rfl⟩ := (ih distinct.2 whole.2 _).mp further
        exact ⟨⟨short, fits, others⟩, rfl⟩
      · rintro ⟨⟨short, fits, others⟩, rfl⟩
        exact ⟨field.set draft value, (reads.2 draft whole.1 value _).mpr ⟨fits, rfl⟩,
          (ih distinct.2 whole.2 _).mpr ⟨⟨short, others⟩, rfl⟩⟩

theorem refuse_ne_ok (draft : Draft) (expected : String) (result : α) :
    refuse draft expected ≠ .ok result := by
  intro read
  obtain ⟨_, _, wrong⟩ := bind_eq_ok.mp read
  cases wrong

/-- A record is read exactly if it is one, and its fields say what is read. -/
theorem Reads.read_eq_ok (reads : record.Reads layout) {draft : Draft} (whole : draft.skipFault = none)
    (value result : α) : record.read draft value = .ok result ↔
      layout.IsRecord draft ∧ result = settle layout.fields (layout.valueAt? draft) value := by
  have refused (expected : String) (shapeless : ¬ layout.HasShape draft) :
      refuse draft expected = .ok result ↔
        layout.IsRecord draft ∧ result = settle layout.fields (layout.valueAt? draft) value :=
    ⟨fun read => absurd read (refuse_ne_ok draft expected result),
      fun isRecord => absurd isRecord.1.1 shapeless⟩
  cases draft with
  | object members fault =>
    rw [Draft.skipFault, Option.or_eq_none_iff, Option.map_eq_none_iff] at whole
    obtain ⟨whole, rfl⟩ := whole
    simp only [read, checkEnd, pure_bind, bind_pure]
    rw [reads.readMembers_eq_ok whole, IsRecord, HasShape, true_and]
    simp only [List.not_mem_nil, false_implies, implies_true, and_true]
    rfl
  | array items fault =>
    rw [Draft.skipFault, Option.or_eq_none_iff, Option.map_eq_none_iff] at whole
    obtain ⟨whole, rfl⟩ := whole
    rw [read, readItems_eq_ok reads.fields reads.lawful.distinct whole, IsRecord, HasShape,
      admits_array reads.lawful]
    rfl
  | null | boolean | number | string | broken => exact refused _ id

end Record

end ClientBoundary.Config
