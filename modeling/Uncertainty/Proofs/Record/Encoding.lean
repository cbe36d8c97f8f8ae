import Uncertainty.Proofs.Formula.Roundtrip
import Uncertainty.Proofs.Json.Roundtrip
import Uncertainty.Proofs.Record.Id
import Uncertainty.Record.Encoding

namespace Uncertainty

class LawfulNamed (α : Type) [Named α] : Prop where
  ofName?_name (a : α) : Named.ofName? (Named.name a) = some a

section Names

instance : LawfulNamed UncertaintyKind := ⟨fun a => by cases a <;> rfl⟩

instance : LawfulNamed Nature := ⟨fun a => by cases a <;> rfl⟩

instance : LawfulNamed Reducibility := ⟨fun a => by cases a <;> rfl⟩

instance : LawfulNamed Deletion := ⟨fun a => by cases a <;> rfl⟩

instance : LawfulNamed LocationType := ⟨fun a => by cases a <;> rfl⟩

instance : LawfulNamed Representation := ⟨fun a => by cases a <;> rfl⟩

instance : LawfulNamed Stochasticity := ⟨fun a => by cases a <;> rfl⟩

instance : LawfulNamed Pattern := ⟨fun a => by cases a <;> rfl⟩

instance : LawfulNamed Viewpoint := ⟨fun a => by cases a <;> rfl⟩

instance : LawfulNamed Source := ⟨fun a => by cases a <;> rfl⟩

end Names

namespace Json

variable {α : Type}

section Fields

variable {names : List String} {members : List (String × Json)} {key name : String} {encode : α → Json}
  {read : Json → Option α} {o : Option α}

lemma fields?_object (h : (members.map (·.1)).Sublist names) (hn : names.Nodup) :
    fields? names (object members) = some (names.map fun name => members.lookup name) := by
  have hone (name : String) : (members.filter (·.1 == name)).length ≤ 1 := by
    have hcount := List.nodup_iff_count_le_one.mp (h.nodup hn) name
    rwa [List.count, List.countP_map, List.countP_eq_length_filter] at hcount
  rw [fields?, if_pos (by simpa using fun name _ => hone name)]

lemma keys_member? (name : String) (encode : α → Json) (o : Option α) :
    ((member? name encode o).map (·.1)).Sublist [name] := by
  cases o with
  | none => exact List.nil_sublist _
  | some a => exact List.Sublist.refl _

@[simp]
lemma lookup_member? : (member? name encode o).lookup key = if key = name then o.map encode else none := by
  cases o with
  | none => simp [member?]
  | some a =>
    by_cases h : key = name
    · simp [member?, h]
    · simp [member?, List.lookup_cons, beq_eq_false_iff_ne.mpr h, h]

lemma optional_map (h : ∀ a, o = some a → read (encode a) = some a) (hnull : ∀ a, encode a ≠ null) :
    optional read (o.map encode) = some o := by
  cases o with
  | none => rfl
  | some a =>
    rw [Option.map_some, optional, h a rfl]
    · rfl
    · exact hnull a

lemma list?_map {as : List α} (h : ∀ a ∈ as, read (encode a) = some a) :
    list? read (array (as.map encode)) = some as := by
  rw [list?]
  induction as with
  | nil => rfl
  | cons a as ih =>
    rw [List.forall_mem_cons] at h
    rw [List.map_cons, List.mapM_cons, h.1, ih h.2]
    rfl

end Fields

end Json

section Leaves

lemma Named.ofJson?_toJson {α : Type} [Named α] [LawfulNamed α] (a : α) : Named.ofJson? (Named.toJson a) = some a :=
  LawfulNamed.ofName?_name a

lemma RecordId.ofJson?_toJson (id : RecordId) : RecordId.ofJson? id.toJson = some id := by
  simp only [RecordId.ofJson?, RecordId.toJson, Json.text?, Option.bind_eq_bind, Option.bind_some, ofText?_text]

lemma EntityId.ofJson?_toJson (id : EntityId) : EntityId.ofJson? id.toJson = some id := by
  have hread : Json.natBelow? UInt32.size id.toJson = some id.index.toNat := Json.natBelow?_ofNat id.index.toNat_lt_size
  rw [EntityId.ofJson?, hread]
  exact congrArg (fun i => some (EntityId.mk i)) UInt32.ofNat_toNat

end Leaves

section Parts

lemma Location.ofJson?_toJson (l : Location) : Location.ofJson? l.toJson = some l := by
  have hkeys := ((List.Sublist.refl ["location_type"]).append
    (Json.keys_member? "parameter_location" Json.string l.parameter)).append
      (List.Sublist.refl ["specification", "referenced_components"])
  have hparameter : Json.optional Json.text? (l.parameter.map Json.string) = some l.parameter :=
    Json.optional_map (fun _ _ => rfl) nofun
  have hreferenced : Json.list? EntityId.ofJson? (.array (l.referenced.map EntityId.toJson)) = some l.referenced :=
    Json.list?_map fun id _ => EntityId.ofJson?_toJson id
  rw [toJson, ofJson?, Json.fields?_object (by simpa using hkeys) (by decide)]
  simp [List.lookup_append, List.lookup_cons, Json.required, Json.defaulted, Named.ofJson?_toJson, hparameter,
    hreferenced, Json.text?]

lemma Perspective.ofJson?_toJson (p : Perspective) : Perspective.ofJson? p.toJson = some p := by
  rw [toJson, ofJson?, Json.fields?_object (by simp) (by decide)]
  simp [List.lookup_cons, Json.required, Named.ofJson?_toJson, Json.text?]

lemma Named.ofJsonField?_toJsonField {α : Type} [Named α] [LawfulNamed α] (name : String) (a : α) :
    Named.ofJsonField? name (Named.toJsonField name a) = some a := by
  rw [toJsonField, ofJsonField?, Json.fields?_object (by simp) (List.nodup_singleton _)]
  simp [List.lookup_cons, Json.required, Named.ofJson?_toJson]

variable {ν : Type} [Number ν]

lemma Expression.ofJson?_toJson {e : Expression ν} (h : parse e.text = .ok e) :
    Expression.ofJson? e.toJson = some e := by
  simp only [ofJson?, toJson, Json.text?, Option.bind_eq_bind, Option.bind_some, h]
  rfl

lemma Effect.ofJson?_toJson {effect : Effect ν}
    (h : ∀ e, effect.expression = some e → Expression.parse e.text = .ok e) :
    Effect.ofJson? effect.toJson = some effect := by
  have hkeys := (List.Sublist.refl ["specification", "representation", "stochasticity"]).append
    (Json.keys_member? "expression" Expression.toJson effect.expression)
  have hexpression : Json.optional Expression.ofJson? (effect.expression.map Expression.toJson) =
      some effect.expression :=
    Json.optional_map (fun e he => Expression.ofJson?_toJson (h e he)) nofun
  rw [toJson, ofJson?, Json.fields?_object (by simpa using hkeys) (by decide)]
  simp [List.lookup_cons, Json.required, Named.ofJson?_toJson, hexpression, Json.text?]

lemma Record.ofJson?_toJson {r : Record ν} (h : ∀ e, r.expression? = some e → Expression.parse e.text = .ok e) :
    Record.ofJson? r.toJson = some r := by
  have hkeys := ((((List.Sublist.refl ["id", "kind", "nature", "reducibility", "on_delete", "set_manually",
    "location"]).append (Json.keys_member? "effect" Effect.toJson r.effect)).append
    (Json.keys_member? "pattern" (Named.toJsonField "pattern_type") r.pattern)).append
    (Json.keys_member? "perspective" Perspective.toJson r.perspective)).append
    (Json.keys_member? "source" (Named.toJsonField "source") r.source)
  have heffect : Json.optional Effect.ofJson? (r.effect.map Effect.toJson) = some r.effect := by
    refine Json.optional_map (fun effect heffect => Effect.ofJson?_toJson fun e he => h e ?_) nofun
    rw [expression?, heffect]
    exact he
  have hpattern : Json.optional (Named.ofJsonField? "pattern_type") (r.pattern.map (Named.toJsonField "pattern_type")) =
      some r.pattern :=
    Json.optional_map (fun pattern _ => Named.ofJsonField?_toJsonField "pattern_type" pattern) nofun
  have hperspective : Json.optional Perspective.ofJson? (r.perspective.map Perspective.toJson) = some r.perspective :=
    Json.optional_map (fun p _ => p.ofJson?_toJson) nofun
  have hsource : Json.optional (Named.ofJsonField? "source") (r.source.map (Named.toJsonField "source")) =
      some r.source :=
    Json.optional_map (fun source _ => Named.ofJsonField?_toJsonField "source" source) nofun
  rw [toJson, ofJson?, Json.fields?_object (by simpa [fieldNames] using hkeys) (by decide)]
  simp [fieldNames, List.lookup_append, List.lookup_cons, Json.required, Json.defaulted, RecordId.ofJson?_toJson,
    Named.ofJson?_toJson, Json.bool?, Location.ofJson?_toJson, heffect, hpattern, hperspective, hsource]

end Parts

section Printing

open Json

variable {ν α : Type} {name : String} {encode : α → Json} {o : Option α} {members members' : List (String × Json)}

lemma Json.printable_member? (h : ∀ a, o = some a → (encode a).Printable) :
    ∀ member ∈ member? name encode o, member.2.Printable := by
  cases o with
  | none => exact List.forall_mem_nil _
  | some a => exact List.forall_mem_singleton.mpr (h a rfl)

lemma EntityId.printable_toJson (id : EntityId) : id.toJson.Printable := .number (isNumeral_toString _)

lemma Location.printable_toJson (l : Location) : l.toJson.Printable := by
  refine .object ?_
  simp only [List.forall_mem_append, List.forall_mem_cons]
  refine ⟨⟨⟨.string _, List.forall_mem_nil _⟩, printable_member? fun _ _ => .string _⟩, .string _, .array ?_,
    List.forall_mem_nil _⟩
  simp [EntityId.printable_toJson]

lemma Perspective.printable_toJson (p : Perspective) : p.toJson.Printable := by
  refine .object ?_
  simp only [List.forall_mem_cons]
  exact ⟨.string _, .string _, List.forall_mem_nil _⟩

lemma Named.printable_toJsonField [Named α] (name : String) (a : α) : (Named.toJsonField name a).Printable :=
  .object (List.forall_mem_singleton.mpr (.string _))

variable [Number ν]

lemma Effect.printable_toJson (effect : Effect ν) : effect.toJson.Printable := by
  refine .object ?_
  simp only [List.forall_mem_append, List.forall_mem_cons]
  exact ⟨⟨.string _, .string _, .string _, List.forall_mem_nil _⟩, printable_member? fun _ _ => .string _⟩

lemma Record.printable_toJson (r : Record ν) : r.toJson.Printable := by
  refine .object ?_
  simp only [List.forall_mem_append, List.forall_mem_cons]
  exact ⟨⟨⟨⟨⟨.string _, .string _, .string _, .string _, .string _, .bool _, r.location.printable_toJson,
    List.forall_mem_nil _⟩, printable_member? fun effect _ => effect.printable_toJson⟩,
    printable_member? fun a _ => Named.printable_toJsonField _ a⟩, printable_member? fun p _ => p.printable_toJson⟩,
    printable_member? fun a _ => Named.printable_toJsonField _ a⟩

end Printing

end Uncertainty
