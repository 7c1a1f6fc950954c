import ClientBoundary.Proofs.RecordReading

/-! The documents that make a configuration, and what they say. Three records stand inside each
other. Their members may come in any order, and each record may be written as an array of its
fields; only the settings of one rule are told apart by their order, since the last of them
counts. -/
namespace ClientBoundary.Config

open Json (Draft Held Spells)
open Json.Draft (ofJson)
open Layout (settle)

variable {draft draft' : Draft} {members : List (Option String × Draft)} {fault : Option Json.Break}

def IsOptionalText : Draft → Prop
  | .null | .string (some _) => True
  | _ => False

def text? : Draft → Option String
  | .string text => text
  | _ => none

theorem readOptionalText_eq_ok {text : Option String} :
    readOptionalText draft = .ok text ↔ IsOptionalText draft ∧ text = text? draft := by
  have refused : refuse draft "a string" ≠ .ok text := Record.refuse_ne_ok _ _ _
  cases draft with
  | null => simp [readOptionalText, IsOptionalText, text?, pure, Except.pure, eq_comm]
  | string held =>
    cases held with
    | none => simpa [readOptionalText, IsOptionalText] using refused
    | some held => simp [readOptionalText, IsOptionalText, text?, pure, Except.pure, eq_comm]
  | boolean | number | array | object | broken =>
    simpa [readOptionalText, IsOptionalText] using refused

def settingTable : List (String × RuleSetting) :=
  [("off", .off), ("warn", .warn), ("warning", .warn), ("error", .error)]

def settingNamed? (name : String) : Option RuleSetting :=
  (settingTable.find? (name = ·.1)).map (·.2)

/-- The setting that is meant by its name, alone or as the key of a null. -/
def settingMeant? : Draft → Option RuleSetting
  | .string (some name) => settingNamed? name
  | .object [(some name, .null)] _ => settingNamed? name
  | _ => none

theorem settingOf_eq_ok {name : String} {setting : RuleSetting} :
    settingOf name = .ok setting ↔ settingNamed? name = some setting := by
  unfold settingOf
  split <;> simp_all [settingNamed?, settingTable, pure, Except.pure, misfit]

theorem settingMeant?_object {setting : RuleSetting}
    (meant : settingMeant? (.object members fault) = some setting) :
    ∃ name, members = [(some name, .null)] ∧ settingNamed? name = some setting := by
  unfold settingMeant? at meant
  split at meant
  · next same => cases same
  · next name _ same =>
    obtain ⟨rfl, _⟩ := Draft.object.inj same
    exact ⟨name, rfl, meant⟩
  · cases meant

theorem settingMeant?_of_read {setting : RuleSetting} (read : readSetting draft = .ok setting) :
    settingMeant? draft = some setting := by
  cases draft with
  | string held =>
    cases held with
    | none => cases read
    | some name => exact settingOf_eq_ok.mp read
  | object members fault =>
    cases members with
    | nil =>
      obtain ⟨_, _, failed⟩ := bind_eq_ok.mp read
      cases failed
    | cons member others =>
      obtain ⟨key, value⟩ := member
      obtain ⟨name, isKey, chosen⟩ := bind_eq_ok.mp read
      obtain ⟨known, named, closed⟩ := bind_eq_ok.mp chosen
      cases key with
      | none => cases isKey
      | some key =>
        cases isKey
        cases value with
        | null =>
          cases others with
          | nil =>
            cases fault with
            | none =>
              cases closed
              exact settingOf_eq_ok.mp named
            | some fault => cases closed
          | cons next others => cases closed
        | boolean | number | string | array | object | broken =>
          exact absurd closed (Record.refuse_ne_ok _ _ _)
  | null | boolean | number | array | broken => cases read

theorem readSetting_eq_ok (whole : draft.skipFault = none) {setting : RuleSetting} :
    readSetting draft = .ok setting ↔ settingMeant? draft = some setting := by
  refine ⟨settingMeant?_of_read, fun meant => ?_⟩
  cases draft with
  | string held =>
    cases held with
    | none => cases meant
    | some name => exact settingOf_eq_ok.mpr meant
  | object members fault =>
    obtain ⟨name, rfl, named⟩ := settingMeant?_object meant
    rw [Draft.skipFault, Option.or_eq_none_iff, Option.map_eq_none_iff] at whole
    obtain ⟨_, rfl⟩ := whole
    simp only [readSetting, keyText, pure_bind, settingOf_eq_ok.mpr named]
    rfl
  | null | boolean | number | array | broken => cases meant

def SetsRules (members : List (Option String × Draft)) : Prop :=
  ∀ member ∈ members, ∃ rule setting, member.1 = some rule ∧ settingMeant? member.2 = some setting

def membersOf : Draft → List (Option String × Draft)
  | .object members _ => members
  | _ => []

def IsRules : Draft → Prop
  | .object members _ => SetsRules members
  | _ => False

def rulesSet (members : List (Option String × Draft)) : List (String × RuleSetting) :=
  members.filterMap fun member => do return (← member.1, ← settingMeant? member.2)

theorem readRuleMembers_eq_ok (whole : Draft.skipFaultOfMembers members = none)
    (soFar rules : List (String × RuleSetting)) :
    readRuleMembers members soFar = .ok rules ↔ SetsRules members ∧ rules = soFar ++ rulesSet members := by
  induction members generalizing soFar with
  | nil => simp [readRuleMembers, SetsRules, rulesSet, pure, Except.pure, eq_comm]
  | cons member rest ih =>
    obtain ⟨key, draft⟩ := member
    rw [Draft.skipFaultOfMembers, Option.or_eq_none_iff] at whole
    rw [SetsRules, List.forall_mem_cons]
    cases key with
    | none =>
      constructor
      · intro read
        cases read
      · rintro ⟨⟨⟨rule, setting, isRule, _⟩, _⟩, _⟩
        cases isRule
    | some rule =>
      have step (setting : RuleSetting) (meant : settingMeant? draft = some setting) :
          soFar ++ rulesSet ((some rule, draft) :: rest) = soFar ++ [(rule, setting)] ++ rulesSet rest := by
        simp [rulesSet, meant]
      rw [readRuleMembers, keyText, pure_bind, bind_eq_ok]
      constructor
      · rintro ⟨setting, read, further⟩
        have meant := (readSetting_eq_ok whole.1).mp read
        obtain ⟨others, rfl⟩ := (ih whole.2 _).mp further
        exact ⟨⟨⟨rule, setting, rfl, meant⟩, others⟩, (step setting meant).symm⟩
      · rintro ⟨⟨⟨_, setting, _, meant⟩, others⟩, rfl⟩
        exact ⟨setting, (readSetting_eq_ok whole.1).mpr meant,
          (ih whole.2 _).mpr ⟨others, step setting meant⟩⟩

theorem readRules_eq_ok (whole : draft.skipFault = none) {rules : List (String × RuleSetting)} :
    readRules draft = .ok rules ↔ IsRules draft ∧ rules = rulesSet (membersOf draft) := by
  cases draft with
  | object members fault =>
    rw [Draft.skipFault, Option.or_eq_none_iff, Option.map_eq_none_iff] at whole
    obtain ⟨whole, rfl⟩ := whole
    simp only [readRules, checkEnd, pure_bind, bind_pure]
    exact readRuleMembers_eq_ok whole [] rules
  | null | boolean | number | string | array | broken =>
    exact ⟨fun read => absurd read (Record.refuse_ne_ok _ _ _), fun isRules => absurd isRules.1 id⟩

/-! The three records. -/

def pragmaField : Field Config where
  name := "pragma"
  Fits := IsOptionalText
  set draft config := { config with pragma := text? draft }
  blank := .null
  Respells _ _ := False

def libraryLayout : Layout Config := ⟨[pragmaField], true⟩

def libraryField : Field Config where
  name := "react"
  Fits := libraryLayout.IsRecord
  set draft := settle libraryLayout.fields (libraryLayout.valueAt? draft)
  blank := .object [] none
  Respells := libraryLayout.Respells

def sharedLayout : Layout Config := ⟨[libraryField], true⟩

def schemaField : Field Config where
  name := "$schema"
  Fits := IsOptionalText
  set draft config := { config with schema := text? draft }
  blank := .null
  Respells _ _ := False

def rulesField : Field Config where
  name := "rules"
  Fits := IsRules
  set draft config := { config with rules := rulesSet (membersOf draft) }
  blank := .object [] none
  Respells _ _ := False

def sharedField : Field Config where
  name := "settings"
  Fits := sharedLayout.IsRecord
  set draft := settle sharedLayout.fields (sharedLayout.valueAt? draft)
  blank := .object [] none
  Respells := sharedLayout.Respells

def documentLayout : Layout Config := ⟨[schemaField, rulesField, sharedField], false⟩

theorem forall_mem_document {P : Field Config → Prop} :
    (∀ field ∈ documentLayout.fields, P field) ↔ P schemaField ∧ P rulesField ∧ P sharedField := by
  rw [documentLayout, List.forall_mem_cons, List.forall_mem_cons, List.forall_mem_singleton]

def libraryPragma? (draft : Draft) : Option String := (libraryLayout.valueAt? draft "pragma").bind text?

def sharedPragma? (draft : Draft) : Option String :=
  (sharedLayout.valueAt? draft "react").bind libraryPragma?

def ruleMembers (draft : Draft) : List (Option String × Draft) :=
  (documentLayout.valueAt? draft "rules").elim [] membersOf

def configOf (draft : Draft) : Config where
  schema := (documentLayout.valueAt? draft "$schema").bind text?
  rules := rulesSet (ruleMembers draft)
  pragma := (documentLayout.valueAt? draft "settings").bind sharedPragma?

theorem libraryLayout_lawful : libraryLayout.Lawful :=
  ⟨List.nodup_singleton _, List.pairwise_singleton _ _⟩

theorem sharedLayout_lawful : sharedLayout.Lawful :=
  ⟨List.nodup_singleton _, List.pairwise_singleton _ _⟩

theorem settle_library (look : String → Option Draft) (config : Config) :
    settle libraryLayout.fields look config =
      { config with pragma := (look "pragma").elim config.pragma text? } := by
  change (look "pragma").elim config _ = _
  cases look "pragma" <;> rfl

theorem settle_shared (look : String → Option Draft) (config : Config) :
    settle sharedLayout.fields look config =
      { config with
        pragma := ((look "react").bind (libraryLayout.valueAt? · "pragma")).elim config.pragma text? } := by
  change (look "react").elim config _ = _
  cases look "react" with
  | none => rfl
  | some draft => exact settle_library _ config

theorem documentLayout_lawful : documentLayout.Lawful := by
  refine ⟨by decide, ?_⟩
  simp only [documentLayout, List.pairwise_cons, List.forall_mem_cons, List.not_mem_nil, false_implies,
    implies_true, and_true, List.Pairwise.nil]
  refine ⟨⟨fun _ _ _ => rfl, ?_⟩, ?_⟩ <;>
  · intro draft draft' config
    simp only [sharedField, settle_shared]
    rfl

theorem sharedField_set {config : Config} (unset : config.pragma = none) :
    sharedField.set draft config = { config with pragma := sharedPragma? draft } := by
  refine (settle_shared _ config).trans ?_
  rw [unset, sharedPragma?]
  cases sharedLayout.valueAt? draft "react" with
  | none => rfl
  | some library =>
    rw [Option.bind_some, Option.bind_some, libraryPragma?]
    cases libraryLayout.valueAt? library "pragma" <;> rfl

theorem settle_document (draft : Draft) :
    settle documentLayout.fields (documentLayout.valueAt? draft) {} = configOf draft := by
  simp only [configOf, ruleMembers]
  generalize documentLayout.valueAt? draft = look
  have front : settle [schemaField, rulesField] look {} =
      { schema := (look "$schema").bind text?, rules := rulesSet ((look "rules").elim [] membersOf) } := by
    cases schema : look "$schema" <;> cases rules : look "rules" <;>
      simp [settle, schemaField, rulesField, schema, rules, rulesSet]
  change settle [sharedField] look (settle [schemaField, rulesField] look {}) = _
  rw [front]
  change (look "settings").elim _ _ = _
  cases look "settings" with
  | none => rfl
  | some shared => exact sharedField_set rfl

theorem put_eq_ok {α β : Type} {first : Reading β} {Fits : Prop} {value : β}
    (reads : ∀ {result}, first = .ok result ↔ Fits ∧ result = value) (put : β → α) (result : α) :
    (do return put (← first)) = .ok result ↔ Fits ∧ result = put value := by
  rw [bind_eq_ok]
  constructor
  · rintro ⟨read, ok, placed⟩
    obtain ⟨fits, rfl⟩ := reads.mp ok
    exact ⟨fits, (Except.ok.inj placed).symm⟩
  · rintro ⟨fits, rfl⟩
    exact ⟨value, reads.mpr ⟨fits, rfl⟩, rfl⟩

theorem librarySettings_reads : librarySettings.Reads libraryLayout := by
  refine ⟨libraryLayout_lawful, rfl, .cons ⟨rfl, ?_⟩ .nil⟩
  exact fun draft _ config => put_eq_ok readOptionalText_eq_ok fun text => { config with pragma := text }

theorem sharedSettings_reads : sharedSettings.Reads sharedLayout :=
  ⟨sharedLayout_lawful, rfl, .cons ⟨rfl, fun _ whole => librarySettings_reads.read_eq_ok whole⟩ .nil⟩

theorem document_reads : document.Reads documentLayout := by
  refine ⟨documentLayout_lawful, rfl, .cons ⟨rfl, ?_⟩ (.cons ⟨rfl, ?_⟩ (.cons ⟨rfl, ?_⟩ .nil))⟩
  · exact fun draft _ config => put_eq_ok readOptionalText_eq_ok fun text => { config with schema := text }
  · exact fun draft whole config => put_eq_ok (readRules_eq_ok whole) fun rules =>
      { config with rules := rules }
  · exact fun _ whole => sharedSettings_reads.read_eq_ok whole

/-- A document is taken exactly if it is one, and what it says is what is read. -/
theorem ofDraft_eq_ok (whole : draft.skipFault = none) {config : Config} :
    ofDraft draft = .ok config ↔ documentLayout.IsRecord draft ∧ config = configOf draft := by
  rw [ofDraft, document_reads.read_eq_ok whole, settle_document]

theorem ofText_of_spells {text : String} (spells : Spells text draft) : ofText text = ofDraft draft := by
  obtain ⟨rest, read, blank⟩ := spells
  simp only [ofText, read, blank, List.isEmpty_nil, if_true, bind_pure]

/-! Other orders. -/

namespace Permutes

theorem not_isOptionalText (permutes : Permutes draft draft') : ¬ IsOptionalText draft := by
  cases permutes <;> exact id

theorem settingMeant? (permutes : Permutes draft draft') {setting : RuleSetting}
    (meant : Config.settingMeant? draft = some setting) : Config.settingMeant? draft' = some setting := by
  cases permutes with
  | here perm =>
    obtain ⟨name, rfl, _⟩ := settingMeant?_object meant
    rw [List.perm_singleton.mp perm.symm]
    exact meant
  | @member front back key value value' fault inside =>
    obtain ⟨name, single, _⟩ := settingMeant?_object meant
    -- A setting has one member at most, with a null that has no order.
    have null : value = .null := by
      cases front <;> simp_all
    subst null
    cases inside
  | item inside => cases meant

theorem isRules (permutes : Permutes draft draft') (isRules : IsRules draft) : IsRules draft' := by
  cases permutes with
  | here perm => exact fun member isMember => isRules member (perm.symm.subset isMember)
  | member inside =>
    simp only [IsRules, SetsRules, List.forall_mem_append, List.forall_mem_cons] at isRules ⊢
    obtain ⟨before, ⟨rule, setting, isRule, meant⟩, behind⟩ := isRules
    exact ⟨before, ⟨rule, setting, isRule, inside.settingMeant? meant⟩, behind⟩
  | item inside => exact isRules

theorem library (permutes : Permutes draft draft') (isRecord : libraryLayout.IsRecord draft) :
    libraryLayout.IsRecord draft' ∧ libraryPragma? draft' = libraryPragma? draft := by
  have pragma : pragmaField ∈ libraryLayout.fields := List.mem_singleton_self _
  obtain ⟨stays, kept⟩ := permutes.isRecord libraryLayout_lawful (List.forall_mem_singleton.mpr
    fun _ _ inside isText => absurd isText inside.not_isOptionalText) isRecord
  refine ⟨stays, (kept _ pragma).apply_eq (·.bind text?) fun value value' found inside => ?_⟩
  exact absurd (isRecord.fits pragma found) inside.not_isOptionalText

theorem shared (permutes : Permutes draft draft') (isRecord : sharedLayout.IsRecord draft) :
    sharedLayout.IsRecord draft' ∧ sharedPragma? draft' = sharedPragma? draft := by
  have library : libraryField ∈ sharedLayout.fields := List.mem_singleton_self _
  obtain ⟨stays, kept⟩ := permutes.isRecord sharedLayout_lawful (List.forall_mem_singleton.mpr
    fun _ _ inside isLibrary => (inside.library isLibrary).1) isRecord
  refine ⟨stays, (kept _ library).apply_eq (·.bind libraryPragma?) fun value value' found inside => ?_⟩
  exact (inside.library (isRecord.fits library found)).2

theorem document (permutes : Permutes draft draft') (isRecord : documentLayout.IsRecord draft) :
    documentLayout.IsRecord draft' ∧ (configOf draft').schema = (configOf draft).schema ∧
      (configOf draft').pragma = (configOf draft).pragma := by
  have isSchema : schemaField ∈ documentLayout.fields := by simp [documentLayout]
  have isShared : sharedField ∈ documentLayout.fields := by simp [documentLayout]
  obtain ⟨stays, kept⟩ := permutes.isRecord documentLayout_lawful (forall_mem_document.mpr
    ⟨fun _ _ inside isText => absurd isText inside.not_isOptionalText,
      fun _ _ inside isRules => inside.isRules isRules,
      fun _ _ inside isShared => (inside.shared isShared).1⟩) isRecord
  refine ⟨stays, (kept _ isSchema).apply_eq (·.bind text?) fun value value' found inside => ?_,
    (kept _ isShared).apply_eq (·.bind sharedPragma?) fun value value' found inside => ?_⟩
  · exact absurd (isRecord.fits isSchema found) inside.not_isOptionalText
  · exact (inside.shared (isRecord.fits isShared found)).2

end Permutes

theorem Reordered.document (reordered : Reordered draft draft') (isRecord : documentLayout.IsRecord draft) :
    documentLayout.IsRecord draft' ∧ (configOf draft').schema = (configOf draft).schema ∧
      (configOf draft').pragma = (configOf draft).pragma := by
  induction reordered with
  | refl => exact ⟨isRecord, rfl, rfl⟩
  | tail _ permutes ih =>
    obtain ⟨before, schema, pragma⟩ := ih
    obtain ⟨stays, schema', pragma'⟩ := permutes.document before
    exact ⟨stays, schema'.trans schema, pragma'.trans pragma⟩

/-! Other notations. -/

namespace Layout.Respells

theorem library (respells : libraryLayout.Respells draft draft') (isRecord : libraryLayout.IsRecord draft) :
    libraryLayout.IsRecord draft' ∧ libraryPragma? draft' = libraryPragma? draft := by
  obtain ⟨stays, entries⟩ := respells.isRecord libraryLayout_lawful
    (List.forall_mem_singleton.mpr trivial)
    (List.forall_mem_singleton.mpr fun _ _ never => never.elim) isRecord
  refine ⟨stays, view_eq_of_respelled (entries _ (List.mem_singleton_self _)) (·.bind text?) rfl ?_⟩
  exact fun _ _ _ never => never.elim

theorem shared (respells : sharedLayout.Respells draft draft') (isRecord : sharedLayout.IsRecord draft) :
    sharedLayout.IsRecord draft' ∧ sharedPragma? draft' = sharedPragma? draft := by
  have library : libraryField ∈ sharedLayout.fields := List.mem_singleton_self _
  obtain ⟨stays, entries⟩ := respells.isRecord sharedLayout_lawful
    (List.forall_mem_singleton.mpr ⟨trivial, admits_nil _⟩)
    (List.forall_mem_singleton.mpr fun _ _ inside isLibrary => (inside.library isLibrary).1) isRecord
  refine ⟨stays, view_eq_of_respelled (entries _ library) (·.bind libraryPragma?) rfl ?_⟩
  exact fun value value' found inside => (inside.library (isRecord.fits library found)).2

theorem document (respells : documentLayout.Respells draft draft')
    (isRecord : documentLayout.IsRecord draft) :
    documentLayout.IsRecord draft' ∧ configOf draft' = configOf draft := by
  have isShared : sharedField ∈ documentLayout.fields := by simp [documentLayout]
  obtain ⟨stays, entries⟩ := respells.isRecord documentLayout_lawful
    (forall_mem_document.mpr ⟨trivial, by simp [rulesField, IsRules, SetsRules], trivial, admits_nil _⟩)
    (forall_mem_document.mpr ⟨fun _ _ never => never.elim, fun _ _ never => never.elim,
      fun _ _ inside isShared => (inside.shared isShared).1⟩) isRecord
  have schema := view_eq_of_respelled (entries schemaField (by simp [documentLayout])) (·.bind text?) rfl
    fun _ _ _ never => never.elim
  have rules := view_eq_of_respelled (entries rulesField (by simp [documentLayout])) (·.elim [] membersOf) rfl
    fun _ _ _ never => never.elim
  have pragma := view_eq_of_respelled (entries sharedField isShared) (·.bind sharedPragma?) rfl
    fun value value' found inside => (inside.shared (isRecord.fits isShared found)).2
  simp only [schemaField, rulesField, sharedField] at schema rules pragma
  exact ⟨stays, by rw [configOf, configOf, ruleMembers, ruleMembers, schema, rules, pragma]⟩

end Layout.Respells

/-- Records are written as arrays, one after the other. -/
def Relisted : Draft → Draft → Prop := Relation.ReflTransGen documentLayout.Respells

theorem Relisted.document (relisted : Relisted draft draft') (isRecord : documentLayout.IsRecord draft) :
    documentLayout.IsRecord draft' ∧ configOf draft' = configOf draft := by
  induction relisted with
  | refl => exact ⟨isRecord, rfl⟩
  | tail _ respells ih =>
    obtain ⟨before, same⟩ := ih
    obtain ⟨stays, same'⟩ := respells.document before
    exact ⟨stays, same'.trans same⟩

/-! What counts for a rule. -/

def givenTo (rule : String) (members : List (Option String × Draft)) : List Draft :=
  (members.filter (·.1 = some rule)).map (·.2)

theorem map_filter_rulesSet (rule : String) (members : List (Option String × Draft)) :
    ((rulesSet members).filter (·.1 = rule)).map (·.2) = (givenTo rule members).filterMap settingMeant? := by
  induction members with
  | nil => rfl
  | cons member rest ih =>
    obtain ⟨key, draft⟩ := member
    simp only [rulesSet, givenTo] at ih ⊢
    cases key with
    | none => simpa using ih
    | some name =>
      cases meant : settingMeant? draft <;> by_cases same : name = rule <;>
        simpa [meant, same] using ih

theorem getLast?_filterMap_of_isSome {β γ : Type} {view : β → Option γ} {items : List β}
    (each : ∀ item ∈ items, (view item).isSome) :
    (items.filterMap view).getLast? = items.getLast?.bind view := by
  rcases List.eq_nil_or_concat items with rfl | ⟨front, last, rfl⟩
  · rfl
  · obtain ⟨value, seen⟩ := Option.isSome_iff_exists.mp (each last (by simp))
    simp [seen]

def severityOf? : RuleSetting → Option Severity
  | .off => none
  | .warn => some .warning
  | .error => some .error

theorem setsRules_ruleMembers (isRecord : documentLayout.IsRecord draft) : SetsRules (ruleMembers draft) := by
  rw [ruleMembers]
  cases found : documentLayout.valueAt? draft "rules" with
  | none => simp [SetsRules]
  | some value =>
    have isRules : IsRules value := isRecord.fits (by simp [documentLayout] : rulesField ∈ _) found
    cases value with
    | object members fault => exact isRules
    | null | boolean | number | string | array | broken => exact isRules.elim

/-- The last setting of a rule counts. -/
theorem severityFor_configOf (isRecord : documentLayout.IsRecord draft) (rule : String)
    (default : Severity) : (configOf draft).severityFor rule default =
      ((givenTo rule (ruleMembers draft)).getLast?.bind settingMeant?).elim (some default) severityOf? := by
  have each : ∀ value ∈ givenTo rule (ruleMembers draft), (settingMeant? value).isSome := by
    intro value isValue
    obtain ⟨member, isMember, rfl⟩ := List.mem_map.mp isValue
    obtain ⟨_, setting, _, meant⟩ := setsRules_ruleMembers isRecord member (List.mem_filter.mp isMember).1
    exact Option.isSome_of_eq_some meant
  have setting : (configOf draft).setting? rule =
      (givenTo rule (ruleMembers draft)).getLast?.bind settingMeant? := by
    rw [← getLast?_filterMap_of_isSome each, ← map_filter_rulesSet, List.getLast?_map,
      List.getLast?_eq_head?_reverse, ← List.filter_reverse, List.head?_filter]
    rfl
  rw [severityFor, setting]
  cases (givenTo rule (ruleMembers draft)).getLast?.bind settingMeant? with
  | none => rfl
  | some setting => cases setting <;> rfl

theorem isRecord_object : documentLayout.IsRecord (.object members fault) ↔
    (∀ member ∈ members, ∃ name ∈ ["$schema", "rules", "settings"], member.1 = some name) ∧
      (members.map (·.1)).Nodup ∧
      (∀ draft, (some "$schema", draft) ∈ members → IsOptionalText draft) ∧
      (∀ draft, (some "rules", draft) ∈ members → IsRules draft) ∧
      ∀ draft, (some "settings", draft) ∈ members → sharedLayout.IsRecord draft := by
  constructor
  · rintro ⟨_, known, once, fits⟩
    have named : ∀ member ∈ members, ∃ name ∈ documentLayout.names, member.1 = some name := by
      intro member isMember
      obtain ⟨name, isName, inLayout | isOpen⟩ := known member isMember
      · exact ⟨name, inLayout, isName⟩
      · cases isOpen
    refine ⟨named, List.nodup_iff_count_le_one.mpr fun key => ?_, forall_mem_document.mp fits⟩
    by_cases given : key ∈ members.map (·.1)
    · obtain ⟨member, isMember, rfl⟩ := List.mem_map.mp given
      obtain ⟨name, inLayout, isName⟩ := named member isMember
      rw [isName]
      exact once name inLayout
    · exact (List.count_eq_zero.mpr given).le.trans (Nat.zero_le 1)
  · rintro ⟨named, distinct, fits⟩
    refine ⟨trivial, ?_, fun name _ => List.nodup_iff_count_le_one.mp distinct (some name),
      forall_mem_document.mpr fits⟩
    intro member isMember
    obtain ⟨name, inLayout, isName⟩ := named member isMember
    exact ⟨name, isName, .inl inLayout⟩

/-- A document is taken if and only if it has the three fields at most, each once and with a value
of its type. Then it does not matter in which order members stand, as long as the values of each
rule keep theirs: the last of them counts. And it does not matter which of the records are written
as arrays. -/
theorem configuration_read {text : String} (spells : Spells text draft) :
    (∀ members fault, draft = .object members fault → ((∃ config, ofText text = .ok config) ↔
      (∀ member ∈ members, ∃ name ∈ ["$schema", "rules", "settings"], member.1 = some name) ∧
        (members.map (·.1)).Nodup ∧
        (∀ value, (some "$schema", value) ∈ members → IsOptionalText value) ∧
        (∀ value, (some "rules", value) ∈ members → IsRules value) ∧
        ∀ value, (some "settings", value) ∈ members → sharedLayout.IsRecord value)) ∧
    ∀ config, ofText text = .ok config →
      config = configOf draft ∧
      (∀ rule default, config.severityFor rule default =
        ((givenTo rule (ruleMembers draft)).getLast?.bind settingMeant?).elim (some default) severityOf?) ∧
      (∀ text' draft', Spells text' draft' → Reordered draft draft' →
        (∀ rule, givenTo rule (ruleMembers draft') = givenTo rule (ruleMembers draft)) →
        ∃ config', ofText text' = .ok config' ∧ config'.schema = config.schema ∧
          config'.pragma = config.pragma ∧
          ∀ rule default, config'.severityFor rule default = config.severityFor rule default) ∧
      ∀ text' draft', Spells text' draft' → Relisted draft draft' → ofText text' = .ok config := by
  have read {text : String} {draft : Draft} (spells : Spells text draft) {config : Config} :
      ofText text = .ok config ↔ documentLayout.IsRecord draft ∧ config = configOf draft := by
    rw [ofText_of_spells spells, ofDraft_eq_ok spells.whole]
  constructor
  · rintro members fault rfl
    rw [← @isRecord_object members fault]
    simp [read spells]
  · intro config taken
    obtain ⟨isRecord, rfl⟩ := (read spells).mp taken
    refine ⟨rfl, severityFor_configOf isRecord, ?_, ?_⟩
    · intro text' draft' spells' reordered ordered
      obtain ⟨stays, schema, pragma⟩ := reordered.document isRecord
      refine ⟨configOf draft', (read spells').mpr ⟨stays, rfl⟩, schema, pragma, ?_⟩
      intro rule default
      rw [severityFor_configOf stays, severityFor_configOf isRecord, ordered]
    · intro text' draft' spells' relisted
      obtain ⟨stays, same⟩ := relisted.document isRecord
      exact (read spells').mpr ⟨stays, same.symm⟩

/-- One rule is set twice, and something else than the library has settings. -/
def repeatedRule : Json := .object [
  ("settings", .object [("other", .null), ("react", .object [("pragma", .string "Preact")])]),
  ("rules", .object [("first", .string "off"), ("second", .object [("warning", .null)]),
    ("first", .string "error")]),
  ("$schema", .null)]

def repeatedRuleReordered : Json := .object [
  ("$schema", .null),
  ("settings", .object [("other", .null), ("react", .object [("pragma", .string "Preact")])]),
  ("rules", .object [("second", .object [("warning", .null)]), ("first", .string "off"),
    ("first", .string "error")])]

def repeatedRuleListed : Json := .array [
  .null,
  .object [("first", .string "off"), ("second", .object [("warning", .null)]), ("first", .string "error")],
  .array [.object [("pragma", .string "Preact")]]]

theorem configuration_read_repeated :
    Spells repeatedRule.pretty (ofJson repeatedRule) ∧ ∃ config, ofText repeatedRule.pretty = .ok config ∧
      config.pragma = some "Preact" ∧ config.severityFor "first" .warning = some .error ∧
      (∃ config', ofText repeatedRuleReordered.pretty = .ok config' ∧
        config'.severityFor "first" .warning = some .error) ∧
      ofText repeatedRuleListed.pretty = .ok config := by
  have spells : Spells repeatedRule.pretty (ofJson repeatedRule) :=
    Held.spells (by simp [repeatedRule])
  have read : ofText repeatedRule.pretty = .ok (configOf (ofJson repeatedRule)) := by
    rw [ofText_of_spells spells]
    rfl
  obtain ⟨_, severity, reordered, relisted⟩ := (configuration_read spells).2 _ read
  have last := severity "first" .warning
  refine ⟨spells, _, read, rfl, last, ?_, ?_⟩
  · have permutes (a c x y z : Option String × Draft) (key : Option String) :
        Reordered (.object [a, (key, .object [x, y, z] none), c] none)
          (.object [c, a, (key, .object [y, x, z] none)] none) := by
      refine .tail (.single (.here ?_)) (@Permutes.member [c, a] [] key _ _ none (.here (.swap _ _ _)))
      exact List.perm_append_singleton c [a, _]
    have ordered (rule : String) : givenTo rule (ruleMembers (ofJson repeatedRuleReordered)) =
        givenTo rule (ruleMembers (ofJson repeatedRule)) := by
      by_cases second : "second" = rule
      · subst second
        rfl
      · change givenTo rule [(some "second", _), _, _] = givenTo rule [_, (some "second", _), _]
        simp only [givenTo, List.filter_cons, Option.some.injEq, second, decide_false]
        rfl
    have spells' : Spells repeatedRuleReordered.pretty (ofJson repeatedRuleReordered) :=
      Held.spells (by simp [repeatedRuleReordered])
    obtain ⟨config', read', _, _, same⟩ := reordered _ _ spells' (permutes _ _ _ _ _ _) ordered
    exact ⟨config', read', (same _ _).trans last⟩
  · have spells' : Spells repeatedRuleListed.pretty (ofJson repeatedRuleListed) :=
      Held.spells (by simp [repeatedRuleListed])
    refine relisted _ _ spells' ?_
    refine .tail (.single (.here (.next (.next (.next (.done (by simp))))))) ?_
    refine @Layout.Respells.item _ documentLayout [_, _] [] sharedField _ _ none rfl ?_
    exact .here (.next (.done (by simp)))

end ClientBoundary.Config
