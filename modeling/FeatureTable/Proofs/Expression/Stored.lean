import FeatureTable.Expression.Json
import Mathlib.Data.List.Nodup
import Mathlib.Logic.Relation

namespace FeatureTable.Expression

/-! An operation is stored as an object, and read back from any object that has the same fields, in
whatever order, next to fields with other names. -/

variable {fields fields' before after : List (String × Json)} {name other : String}
  {json json' : Json} {operator : Operator} {function : Option Transform} {e : Expression}

def stored (fields : List (String × Json)) : Json :=
  .object [("Operation", .object fields)]

def fieldNames : List String := ["kind", "source1", "source2", "function"]

/-- A single change to how an operation is stored, at any depth. -/
inductive Loosens : Json → Json → Prop
  | reorder {fields fields' : List (String × Json)} (h : fields.Perm fields') :
      Loosens (stored fields) (stored fields')
  | add {before after : List (String × Json)} {name : String} (h : name ∉ fieldNames)
      (json : Json) :
      Loosens (stored (before ++ after)) (stored (before ++ (name, json) :: after))
  | drop {before after : List (String × Json)} {name : String}
      (h : name = "source2" ∨ name = "function") :
      Loosens (stored (before ++ (name, .null) :: after)) (stored (before ++ after))
  | operand {before after : List (String × Json)} {name : String} {json json' : Json}
      (h : name = "source1" ∨ name = "source2") (hjson : Loosens json json') :
      Loosens (stored (before ++ (name, json) :: after))
        (stored (before ++ (name, json') :: after))

def Single (fields : List (String × Json)) : Prop :=
  ∀ name ∈ fieldNames, (fields.map Prod.fst).count name ≤ 1

def Vacant (fields : List (String × Json)) (name : String) : Prop :=
  ∀ json, (name, json) ∈ fields → json = .null

inductive HasFunction (fields : List (String × Json)) : Option Transform → Prop
  | none (h : Vacant fields "function") : HasFunction fields none
  | some {f : Transform} (h : ("function", .string f.name) ∈ fields) : HasFunction fields (some f)

/-- The fields of an operation other than its operands. -/
structure Header (fields : List (String × Json)) (operator : Operator)
    (function : Option Transform) : Prop where
  single : Single fields
  kind : ("kind", .string operator.name) ∈ fields
  function : HasFunction fields function

inductive Represents : Expression → Json → Prop
  | column (name : String) : Represents (.column name) (.object [("ColumnRef", .string name)])
  | overOne {fields : List (String × Json)} {operator : Operator} {function : Option Transform}
      {source : Expression} {first : Json} (hheader : Header fields operator function)
      (hfirst : ("source1", first) ∈ fields) (hsource : Represents source first)
      (hvacant : Vacant fields "source2") :
      Represents (.overOne operator source function) (stored fields)
  | overTwo {fields : List (String × Json)} {operator : Operator} {function : Option Transform}
      {source₁ source₂ : Expression} {first second : Json}
      (hheader : Header fields operator function)
      (hfirst : ("source1", first) ∈ fields) (hsource₁ : Represents source₁ first)
      (hsecond : ("source2", second) ∈ fields) (hsource₂ : Represents source₂ second) :
      Represents (.overTwo operator source₁ source₂ function) (stored fields)

theorem Represents.ne_null (h : Represents e json) : json ≠ .null := by
  cases h <;> exact Json.noConfusion

theorem header_operationToJson (operator : Operator) (first second : Json)
    (function : Option Transform) :
    Header [("kind", .string operator.name), ("source1", first), ("source2", second),
      ("function", functionToJson function)] operator function where
  single := fun name _ => List.nodup_iff_count_le_one.mp (by decide : fieldNames.Nodup) name
  kind := List.mem_cons_self
  function := by
    cases function with
    | none => exact .none fun json hjson => by simpa [functionToJson] using hjson
    | some f => exact .some (by simp [functionToJson])

theorem represents_toJson (e : Expression) : Represents e e.toJson := by
  induction e with
  | column name => exact .column name
  | overOne operator source function ih =>
      exact .overOne (header_operationToJson operator _ _ function) (by simp) ih
        (fun json hjson => by simpa using hjson)
  | overTwo operator source₁ source₂ function ih₁ ih₂ =>
      exact .overTwo (header_operationToJson operator _ _ function) (by simp) ih₁ (by simp) ih₂

/-- Nothing is new, and nothing is gone but what is null or has another name. -/
structure Keeps (fields fields' : List (String × Json)) : Prop where
  count : ∀ name ∈ fieldNames,
    (fields'.map Prod.fst).count name ≤ (fields.map Prod.fst).count name
  old : ∀ name json, name ∈ fieldNames → (name, json) ∈ fields' → (name, json) ∈ fields
  kept : ∀ name json, json ≠ .null → (name, json) ∈ fields → (name, json) ∈ fields'

theorem keeps_reorder (h : fields.Perm fields') : Keeps fields fields' where
  count := fun name _ => Nat.le_of_eq ((h.map Prod.fst).count_eq name).symm
  old := fun _ _ _ hmem => h.mem_iff.mpr hmem
  kept := fun _ _ _ hmem => h.mem_iff.mp hmem

theorem keeps_add (h : name ∉ fieldNames) (json : Json) :
    Keeps (before ++ after) (before ++ (name, json) :: after) where
  count := by
    intro other hother
    have hne : name ≠ other := fun heq => h (heq ▸ hother)
    simp [List.count_cons_of_ne hne]
  old := by
    intro other value hother hmem
    have hne : other ≠ name := fun heq => h (heq ▸ hother)
    simpa [hne] using hmem
  kept := by
    intro other value _ hmem
    simp only [List.mem_append, List.mem_cons] at hmem ⊢
    exact hmem.imp_right Or.inr

theorem keeps_drop (before after : List (String × Json)) (name : String) :
    Keeps (before ++ (name, .null) :: after) (before ++ after) where
  count := fun other _ =>
    (((List.sublist_cons_self _ _).append_left before).map Prod.fst).count_le other
  old := fun _ _ _ hmem => ((List.sublist_cons_self _ _).append_left before).mem hmem
  kept := by
    intro other value hvalue hmem
    simpa [hvalue] using hmem

theorem Vacant.keeps (h : Vacant fields name) (hname : name ∈ fieldNames)
    (hkeeps : Keeps fields fields') : Vacant fields' name :=
  fun json hmem => h json (hkeeps.old name json hname hmem)

theorem Header.keeps (h : Header fields operator function) (hkeeps : Keeps fields fields') :
    Header fields' operator function where
  single := fun name hname => Nat.le_trans (hkeeps.count name hname) (h.single name hname)
  kind := hkeeps.kept _ _ Json.noConfusion h.kind
  function := by
    cases h.function with
    | none hvacant => exact .none (hvacant.keeps (by decide) hkeeps)
    | some hmem => exact .some (hkeeps.kept _ _ Json.noConfusion hmem)

theorem stored_inj (h : stored fields = stored fields') : fields = fields' := by
  simpa [stored] using h

theorem stored_ne_column (fields : List (String × Json)) (name : String) :
    stored fields ≠ .object [("ColumnRef", .string name)] := by
  simp [stored]

theorem Represents.keeps (h : Represents e (stored fields)) (hkeeps : Keeps fields fields') :
    Represents e (stored fields') := by
  generalize hstored : stored fields = json at h
  cases h with
  | column name => exact absurd hstored (stored_ne_column fields name)
  | overOne hheader hfirst hsource hvacant =>
      cases stored_inj hstored
      exact .overOne (hheader.keeps hkeeps) (hkeeps.kept _ _ hsource.ne_null hfirst) hsource
        (hvacant.keeps (by decide) hkeeps)
  | overTwo hheader hfirst hsource₁ hsecond hsource₂ =>
      cases stored_inj hstored
      exact .overTwo (hheader.keeps hkeeps) (hkeeps.kept _ _ hsource₁.ne_null hfirst) hsource₁
        (hkeeps.kept _ _ hsource₂.ne_null hsecond) hsource₂

theorem field?_of_mem (hsingle : (fields.map Prod.fst).count name ≤ 1)
    (h : (name, json) ∈ fields) : Json.field? name fields = some json := by
  unfold Json.field?
  induction fields with
  | nil => cases h
  | cons field fields ih =>
      obtain ⟨key, value⟩ := field
      rw [List.map_cons, List.count_cons] at hsingle
      rw [List.lookup_cons]
      by_cases hkey : key = name
      · have hgone : name ∉ fields.map Prod.fst := by
          rw [if_pos (beq_iff_eq.mpr hkey)] at hsingle
          exact List.count_eq_zero.mp (by omega)
        have hhead : (name, json) = (key, value) :=
          (List.mem_cons.mp h).resolve_right fun hmem => hgone (List.mem_map_of_mem hmem)
        cases hhead
        rw [beq_self_eq_true]
      · have htail : (name, json) ∈ fields :=
          (List.mem_cons.mp h).resolve_left fun heq => hkey (congrArg Prod.fst heq).symm
        rw [beq_false_of_ne (Ne.symm hkey)]
        exact ih (by omega) htail

theorem mem_of_field? (h : Json.field? name fields = some json) : (name, json) ∈ fields := by
  obtain ⟨before, after, hfields, -⟩ := List.lookup_eq_some_iff.mp h
  rw [hfields]
  exact List.mem_append_right _ List.mem_cons_self

theorem Single.unique (h : Single fields) (hname : name ∈ fieldNames)
    (hjson : (name, json) ∈ fields) (hjson' : (name, json') ∈ fields) : json = json' :=
  Option.some.inj <|
    (field?_of_mem (h name hname) hjson).symm.trans (field?_of_mem (h name hname) hjson')

theorem Vacant.field? (h : Vacant fields name) :
    Json.field? name fields = none ∨ Json.field? name fields = some .null := by
  cases hfield : Json.field? name fields with
  | none => exact .inl rfl
  | some json => exact .inr (congrArg some (h json (mem_of_field? hfield)))

theorem mem_operand (hne : other ≠ name) (json json' value : Json) :
    (other, value) ∈ before ++ (name, json) :: after ↔
      (other, value) ∈ before ++ (name, json') :: after := by
  simp [hne]

theorem Header.operand (hname : name = "source1" ∨ name = "source2")
    (h : Header (before ++ (name, json) :: after) operator function) (json' : Json) :
    Header (before ++ (name, json') :: after) operator function := by
  have hkind : "kind" ≠ name := by rcases hname with rfl | rfl <;> decide
  have hfunction : "function" ≠ name := by rcases hname with rfl | rfl <;> decide
  refine ⟨?_, (mem_operand hkind json json' _).mp h.kind, ?_⟩
  · have hsingle := h.single
    rw [Single, List.map_append, List.map_cons] at hsingle ⊢
    exact hsingle
  · cases h.function with
    | none hvacant =>
        refine .none fun value hvalue => ?_
        exact hvacant value ((mem_operand hfunction json json' _).mpr hvalue)
    | some hmem => exact .some ((mem_operand hfunction json json' _).mp hmem)

theorem Represents.operand (hname : name = "source1" ∨ name = "source2") (hnull : json ≠ .null)
    (hjson : ∀ e, Represents e json → Represents e json')
    (h : Represents e (stored (before ++ (name, json) :: after))) :
    Represents e (stored (before ++ (name, json') :: after)) := by
  have hmem : (name, json) ∈ before ++ (name, json) :: after :=
    List.mem_append_right _ List.mem_cons_self
  have hmem' : (name, json') ∈ before ++ (name, json') :: after :=
    List.mem_append_right _ List.mem_cons_self
  generalize hstored : stored (before ++ (name, json) :: after) = whole at h
  cases h with
  | column name => exact absurd hstored (stored_ne_column _ name)
  | overOne hheader hfirst hsource hvacant =>
      cases stored_inj hstored
      rcases hname with rfl | rfl
      · cases hheader.single.unique (by decide) hmem hfirst
        refine .overOne (hheader.operand (.inl rfl) json') hmem' (hjson _ hsource) ?_
        exact fun value hvalue => hvacant value ((mem_operand (by decide) json json' _).mpr hvalue)
      · exact absurd (hvacant json hmem) hnull
  | overTwo hheader hfirst hsource₁ hsecond hsource₂ =>
      cases stored_inj hstored
      rcases hname with rfl | rfl
      · cases hheader.single.unique (by decide) hmem hfirst
        exact .overTwo (hheader.operand (.inl rfl) json') hmem' (hjson _ hsource₁)
          ((mem_operand (by decide) json json' _).mp hsecond) hsource₂
      · cases hheader.single.unique (by decide) hmem hsecond
        exact .overTwo (hheader.operand (.inr rfl) json')
          ((mem_operand (by decide) json json' _).mp hfirst) hsource₁ hmem' (hjson _ hsource₂)

theorem Loosens.ne_null (h : Loosens json json') : json ≠ .null := by
  cases h <;> exact Json.noConfusion

theorem Represents.loosens (hjson : Loosens json json') (h : Represents e json) :
    Represents e json' := by
  induction hjson generalizing e with
  | reorder hperm => exact h.keeps (keeps_reorder hperm)
  | add hname json => exact h.keeps (keeps_add hname json)
  | drop hname => exact h.keeps (keeps_drop _ _ _)
  | operand hname hinner ih => exact h.operand hname hinner.ne_null fun _ => ih

/-- The second operand may be left out, or null. -/
def secondOfJson? : Option Json → Option (Option Expression)
  | none => some none
  | some .null => some none
  | some second => (ofJson? second).map some

theorem ofJson?_stored (fields : List (String × Json)) :
    ofJson? (stored fields) =
      (Json.field? "source1" fields).bind fun first => do
        let operator ← operatorOfJson? (Json.field? "kind" fields)
        let source₁ ← ofJson? first
        let source₂ ← secondOfJson? (Json.field? "source2" fields)
        let function ← functionOfJson? (Json.field? "function" fields)
        return operation operator source₁ source₂ function := by
  rw [stored, ofJson?]
  split
  · rename_i hfirst
    rw [hfirst]
    rfl
  · rename_i first hfirst
    rw [hfirst, Option.bind_some]
    refine bind_congr fun operator => bind_congr fun source₁ => ?_
    rw [secondOfJson?.eq_def]
    split <;> simp_all

theorem Header.operatorOfJson? (h : Header fields operator function) :
    operatorOfJson? (Json.field? "kind" fields) = some operator := by
  rw [field?_of_mem (h.single _ (by decide)) h.kind, Expression.operatorOfJson?]
  exact Operator.ofName?_name operator

theorem Header.functionOfJson? (h : Header fields operator function) :
    functionOfJson? (Json.field? "function" fields) = some function := by
  cases h.function with
  | none hvacant => rcases hvacant.field? with hfield | hfield <;> rw [hfield] <;> rfl
  | @some f hmem =>
      rw [field?_of_mem (h.single _ (by decide)) hmem]
      exact congrArg (Option.map some) (Transform.ofCanonicalName?_name f)

theorem secondOfJson?_of_vacant (h : Vacant fields "source2") :
    secondOfJson? (Json.field? "source2" fields) = some none := by
  rcases h.field? with hfield | hfield <;> rw [hfield] <;> rfl

theorem secondOfJson?_of_ne_null (h : json ≠ .null) :
    secondOfJson? (some json) = (ofJson? json).map some := by
  cases json with
  | null => exact absurd rfl h
  | _ => rfl

theorem ofJson?_of_represents (h : Represents e json) : ofJson? json = some e := by
  induction h with
  | column name => rw [ofJson?]
  | @overOne fields _ _ _ first hheader hfirst hsource hvacant ih =>
      rw [ofJson?_stored, field?_of_mem (hheader.single _ (by decide)) hfirst, Option.bind_some,
        hheader.operatorOfJson?, ih, secondOfJson?_of_vacant hvacant, hheader.functionOfJson?]
      rfl
  | @overTwo fields _ _ _ _ first second hheader hfirst hsource₁ hsecond hsource₂ ih₁ ih₂ =>
      rw [ofJson?_stored, field?_of_mem (hheader.single _ (by decide)) hfirst, Option.bind_some,
        hheader.operatorOfJson?, ih₁, field?_of_mem (hheader.single _ (by decide)) hsecond,
        secondOfJson?_of_ne_null hsource₂.ne_null, ih₂, hheader.functionOfJson?]
      rfl

theorem represents_of_loosened (h : Relation.ReflTransGen Loosens e.toJson json) :
    Represents e json := by
  induction h with
  | refl => exact represents_toJson e
  | tail _ hstep ih => exact ih.loosens hstep

/-- An expression is read back from its stored form, and from all that comes of it by changes that
do not matter.  No other expression has the same stored form. -/
theorem ofJson?_toJson_loosened (e : Expression) :
    ofJson? e.toJson = some e ∧
      (∀ json, Relation.ReflTransGen Loosens e.toJson json → ofJson? json = some e) ∧
      ∀ other : Expression, other.toJson = e.toJson → other = e := by
  have hread : ∀ other : Expression, ofJson? other.toJson = some other :=
    fun other => ofJson?_of_represents (represents_toJson other)
  refine ⟨hread e, fun json hjson => ofJson?_of_represents (represents_of_loosened hjson),
    fun other hsame => ?_⟩
  exact Option.some.inj ((hread other).symm.trans (hsame ▸ hread e))

theorem ofJson?_toJson_loosened_nested :
    Relation.ReflTransGen Loosens
        (toJson (overTwo .add (overOne .apply (column "A") (some .sqrt)) (column "B") none))
        (stored [("function", .null), ("source2", toJson (column "B")),
          ("source1", stored [("kind", .string "apply"), ("source1", toJson (column "A")),
            ("function", .string "sqrt")]), ("kind", .string "add"), ("note", .bool true)]) ∧
      ofJson? (stored [("function", .null), ("source2", toJson (column "B")),
          ("source1", stored [("kind", .string "apply"), ("source1", toJson (column "A")),
            ("function", .string "sqrt")]), ("kind", .string "add"), ("note", .bool true)]) =
        some (overTwo .add (overOne .apply (column "A") (some .sqrt)) (column "B") none) := by
  have hinner : Loosens (toJson (overOne .apply (column "A") (some .sqrt)))
      (stored [("kind", .string "apply"), ("source1", toJson (column "A")),
        ("function", .string "sqrt")]) :=
    @Loosens.drop [("kind", .string "apply"), ("source1", toJson (column "A"))]
      [("function", .string "sqrt")] "source2" (.inl rfl)
  have hloosened : Relation.ReflTransGen Loosens
      (toJson (overTwo .add (overOne .apply (column "A") (some .sqrt)) (column "B") none))
      (stored [("function", .null), ("source2", toJson (column "B")),
        ("source1", stored [("kind", .string "apply"), ("source1", toJson (column "A")),
          ("function", .string "sqrt")]), ("kind", .string "add"), ("note", .bool true)]) := by
    refine .head (@Loosens.operand [("kind", .string "add")]
      [("source2", toJson (column "B")), ("function", .null)] "source1" _ _ (.inl rfl) hinner) ?_
    refine .head (@Loosens.add [] _ "note" (by decide) (.bool true)) ?_
    exact .single (.reorder (List.reverse_perm _).symm)
  obtain ⟨-, hread, -⟩ := ofJson?_toJson_loosened
    (overTwo .add (overOne .apply (column "A") (some .sqrt)) (column "B") none)
  exact ⟨hloosened, hread _ hloosened⟩

end FeatureTable.Expression
