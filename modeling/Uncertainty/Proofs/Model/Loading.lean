import Mathlib.Data.Fintype.EquivFin
import Mathlib.Order.WellFounded
import Uncertainty.Model.Encoding
import Uncertainty.Proofs.Model.Order
import Uncertainty.Proofs.Record.Encoding

namespace Uncertainty

open Relation

section Reading

lemma Json.exists_of_list? {α : Type} {read : Json → Option α} {j : Json} {as : List α} (h : list? read j = some as)
    {a : α} (ha : a ∈ as) : ∃ item, read item = some a := by
  cases j with
  | array items =>
    rw [list?] at h
    induction items generalizing as with
    | nil =>
      obtain rfl := Option.some.inj h
      cases ha
    | cons item items ih =>
      rw [List.mapM_cons] at h
      simp only [Option.bind_eq_bind, Option.bind_eq_some_iff] at h
      obtain ⟨first, hfirst, rest, hrest, hcons⟩ := h
      cases hcons
      rcases List.mem_cons.mp ha with rfl | ha
      · exact ⟨item, hfirst⟩
      · exact ih ha hrest
  | _ => cases h

lemma Entity.sublist_of_valuesOfJson? {j : Json} {values : List (Attribute × Float)}
    (h : Entity.valuesOfJson? j = some values) : (values.map (·.1)).Sublist Attribute.all := by
  unfold Entity.valuesOfJson? at h
  cases j with
  | object members =>
    obtain ⟨read, -, hvalues⟩ := Option.bind_eq_some_iff.mp h
    obtain rfl := Option.some.inj hvalues
    have hguard : (fun a => ((read.reverse.lookup a).map fun v => (a, v)).map (·.1)) =
        Option.guard fun a => (read.reverse.lookup a).isSome := by
      funext a
      cases h : read.reverse.lookup a <;> simp [h, Option.guard]
    rw [List.map_filterMap, hguard, List.filterMap_eq_filter]
    exact List.filter_sublist
  | _ => cases h

lemma Entity.sublist_of_ofJson? {j : Json} {e : Entity Float} (h : Entity.ofJson? j = some e) :
    (e.values.map (·.1)).Sublist Attribute.all := by
  unfold Entity.ofJson? at h
  obtain ⟨fields, -, h⟩ := Option.bind_eq_some_iff.mp h
  split at h
  · simp only [Option.bind_eq_bind, Option.bind_eq_some_iff] at h
    obtain ⟨kind, -, container, -, children, -, values, hvalues, he⟩ := h
    cases he
    rename_i stated
    cases stated with
    | none => cases hvalues
    | some value => exact sublist_of_valuesOfJson? hvalues
  · cases h

end Reading

namespace Registry

section Links

variable {ν : Type} {m : Registry ν} {id i j : EntityId} {a : Attribute}

def IsIn (m : Registry ν) (id parent : EntityId) : Prop := m.container id = .ok (some parent)

def Lists (m : Registry ν) (id child : EntityId) : Prop := ∃ cs, m.children id = .ok cs ∧ child ∈ cs

lemma finite_ids : Finite EntityId :=
  .of_injective (fun id : EntityId => id.index.toBitVec.toFin) fun _ _ h =>
    index_injective (congrArg Fin.val h)

lemma wellFounded_of_acyclic {links : EntityId → EntityId → Prop} (h : ∀ id, ¬ TransGen links id id) :
    WellFounded (flip links) := by
  have := finite_ids
  have : Std.Irrefl (TransGen (flip links)) := ⟨fun id hid => h id (transGen_swap.mp hid)⟩
  exact Subrelation.wf .single (Finite.wellFounded_of_trans_of_irrefl (TransGen (flip links)))

lemma endsAfter_of_transGen {n : Nat} {x : Except ModelError EntityId} (h : TransGen m.IsIn i j)
    (hi : EndsAfter m.climb n i x) : ∃ k < n, EndsAfter m.climb k j x := by
  have hturn {i j : EntityId} (hin : m.IsIn i j) : m.climb i = .inr j := by rw [climb, hin]
  have hstep {i j : EntityId} {n : Nat} (hin : m.IsIn i j) (hi : EndsAfter m.climb n i x) :
      ∃ k < n, EndsAfter m.climb k j x := by
    cases hi with
    | now hx => cases hx.symm.trans (hturn hin)
    | later ht hrest =>
      cases ht.symm.trans (hturn hin)
      exact ⟨_, Nat.lt_succ_self _, hrest⟩
  induction h with
  | single hin => exact hstep hin hi
  | tail _ hin ih =>
    obtain ⟨k, hk, hj⟩ := ih
    obtain ⟨l, hl, hend⟩ := hstep hin hj
    exact ⟨l, hl.trans hk, hend⟩

lemma climbs_end_iff : (∀ id, ∃ x, EndsWith m.climb id x) ↔ ∀ id, ¬ TransGen m.IsIn id id := by
  constructor
  · intro hends id hcircle
    obtain ⟨x, n, hx⟩ := hends id
    obtain ⟨k, hk, hx'⟩ := endsAfter_of_transGen hcircle hx
    exact hk.ne (hx.unique hx').1
  · intro hacyclic id
    -- Ids are finite in number, so links without a circle lead up only so far.
    induction id using (wellFounded_of_acyclic hacyclic).induction with
    | _ id ih =>
      cases hc : m.container id with
      | error f => exact ⟨.error f, .now (by rw [climb, hc])⟩
      | ok o =>
        cases o with
        | none => exact ⟨.ok id, .now (by rw [climb, hc])⟩
        | some parent =>
          obtain ⟨x, hx⟩ := ih parent hc
          exact ⟨x, .later (by rw [climb, hc]) hx⟩

lemma searches_end_of_acyclic (hacyclic : ∀ id, ¬ TransGen m.Lists id id) (id : EntityId) (a : Attribute) :
    ∃ x, EndsWith (m.look a) [id] x := by
  induction id using (wellFounded_of_acyclic hacyclic).induction with
  | _ id ih =>
    cases he : m.entity id with
    | error f => exact ⟨.error f, .now (by rw [look, he])⟩
    | ok e =>
      have hlook := look_singleton (a := a) he
      cases hs : e.kind.supports a with
      | true => exact ⟨_, .now (by rw [hlook, hs]; rfl)⟩
      | false =>
        -- Each child has its search by induction; the search of them all goes on where one has found nothing.
        have hbelow (cs : List EntityId) (hcs : cs ⊆ e.children) : ∃ x, EndsWith (m.look a) cs x := by
          induction cs with
          | nil => exact ⟨_, .now rfl⟩
          | cons c cs ihcs =>
            rw [List.cons_subset] at hcs
            obtain ⟨x, hx⟩ := ih c ⟨e.children, children_of_entity he, hcs.1⟩
            obtain ⟨y, hy⟩ := ihcs hcs.2
            change ∃ x, EndsWith (m.look a) ([c] ++ cs) x
            by_cases hnone : x = .ok none
            · exact ⟨y, endsWith_append hx (fun _ => hy) (absurd hnone)⟩
            · exact ⟨x, endsWith_append hx (absurd · hnone) fun _ => rfl⟩
        obtain ⟨x, hx⟩ := hbelow e.children (List.Subset.refl _)
        exact ⟨x, .later (by rw [hlook, hs]; rfl) hx⟩

lemma acyclic_of_flat {links : EntityId → EntityId → Prop} (h : ∀ i j k, links i j → ¬ links j k) (id : EntityId) :
    ¬ TransGen links id id := by
  intro hcircle
  obtain ⟨k, hout, -⟩ := TransGen.head'_iff.mp hcircle
  obtain ⟨i, -, hin⟩ := TransGen.tail'_iff.mp hcircle
  exact h i id k hin hout

lemma Tidy.isIn_acyclic (ht : m.Tidy) : ∀ id, ¬ TransGen m.IsIn id id := by
  refine acyclic_of_flat fun i system k hin hout => ?_
  have hnone := (ht.root system .damperSystem (ht.above i system hin)).mpr rfl
  cases hnone.symm.trans hout

lemma Tidy.lists_acyclic (ht : m.Tidy) : ∀ id, ¬ TransGen m.Lists id id := by
  rintro id
  refine acyclic_of_flat ?_ id
  rintro i c k ⟨cs, hcs, hc⟩ ⟨below, hbelow, hk⟩
  cases hbelow.symm.trans (ht.children_of_child (ht.container_of_child hcs hc))
  cases hk

end Links

section Texts

variable {text : String} {m : Registry Float}

lemma exists_of_ofJsonText? (h : ofJsonText? text = some m) {id : EntityId} {e : Entity Float}
    (he : m.entity id = .ok e) : ∃ j, Entity.ofJson? j = some e := by
  obtain ⟨j, -, h⟩ := Option.bind_eq_some_iff.mp h
  unfold ofJson? at h
  obtain ⟨fields, -, h⟩ := Option.bind_eq_some_iff.mp h
  split at h
  · rename_i stated
    obtain ⟨es, hes, hm⟩ := Option.bind_eq_some_iff.mp h
    cases hm
    cases stated with
    | none => cases hes
    | some value =>
      have hmem := Array.mem_of_getElem? (entity_ok_iff.mp he)
      exact Json.exists_of_list? hes (List.mem_toArray.mp hmem)
  · cases h

/-- Of what is read, no entity has an attribute twice, and nothing is said of the links. All climbs come to an end just
if nothing is inside itself, and all searches do if nothing is below itself. Where the links fit together, as they do in
a model that was built, the climb from every entity ends at a system and every search below it has an answer. -/
theorem loaded_walks_end_without_circles (h : ofJsonText? text = some m) :
    (∀ id e, m.entity id = .ok e → (e.values.map (·.1)).Sublist Attribute.all) ∧
      ((∀ id, ∃ x, EndsWith m.climb id x) ↔ ∀ id, ¬ TransGen m.IsIn id id) ∧
      ((∀ id, ¬ TransGen m.Lists id id) → ∀ id a, ∃ x, EndsWith (m.look a) [id] x) ∧
      (m.Tidy → (∀ id, ¬ TransGen m.IsIn id id) ∧ (∀ id, ¬ TransGen m.Lists id id) ∧ ∀ id e, m.entity id = .ok e →
        (∃ system, EndsWith m.climb id (.ok system) ∧ m.kind system = .ok .damperSystem) ∧
          ∀ a, ∃ o, EndsWith (m.look a) [id] (.ok o)) := by
  refine ⟨fun id e he => ?_, climbs_end_iff, searches_end_of_acyclic,
    fun ht => ⟨ht.isIn_acyclic, ht.lists_acyclic, fun id e he => ⟨?_, fun a => ?_⟩⟩⟩
  · obtain ⟨j, hj⟩ := exists_of_ofJsonText? h he
    exact Entity.sublist_of_ofJson? hj
  · obtain ⟨system, hends, -, hkind, -⟩ := ht.exists_rootOf he
    exact ⟨system, hends, hkind⟩
  · exact ⟨_, (ht.findHolder_eq (children_of_entity he) a).1⟩

end Texts

section Springs

deriving instance DecidableEq for Entity, Registry

def stated (kind : EntityKind) (container : Option EntityId) (children : List EntityId) (value : Nat) : Json :=
  .object [("kind", .string kind.name), ("container", (container.map EntityId.toJson).getD .null),
    ("children", .array (children.map EntityId.toJson)),
    ("values", .object (kind.attributes.map fun a => (a.name, .ofNat value)))]

lemma printable_stated (kind : EntityKind) (container : Option EntityId) (children : List EntityId) (value : Nat) :
    (stated kind container children value).Printable := by
  refine .object ?_
  simp only [List.forall_mem_cons]
  refine ⟨.string _, ?_, .array fun item hitem => ?_, .object fun member hmember => ?_, List.forall_mem_nil _⟩
  · cases container with
    | none => exact .null
    | some id => exact EntityId.printable_toJson id
  · obtain ⟨child, -, rfl⟩ := List.mem_map.mp hitem
    exact EntityId.printable_toJson child
  · obtain ⟨a, -, rfl⟩ := List.mem_map.mp hmember
    exact .number (Json.isNumeral_toString value)

def textOf (entities : List Json) : String := (Json.object [("entities", .array entities)]).pretty 0

lemma ofJsonText?_textOf {entities : List Json} (h : ∀ j ∈ entities, j.Printable) :
    ofJsonText? (textOf entities) = ofJson? (.object [("entities", .array entities)]) := by
  have hprintable : (Json.object [("entities", .array entities)]).Printable := by
    refine .object ?_
    simp only [List.forall_mem_cons]
    exact ⟨.array h, List.forall_mem_nil _⟩
  rw [ofJsonText?, textOf, Json.parse?_pretty hprintable]
  rfl

def systemWithSpring : String :=
  textOf [stated .damperSystem none [⟨1⟩] 0, stated .springDamper (some ⟨0⟩) [] 140]

theorem systemWithSpring_walks_end : ∃ m, ofJsonText? systemWithSpring = some m ∧
    (∀ id, ∃ x, EndsWith m.climb id x) ∧ (∀ id a, ∃ x, EndsWith (m.look a) [id] x) ∧
    EndsWith m.climb ⟨1⟩ (.ok ⟨0⟩) ∧ ∃ o, EndsWith (m.look .stiffness) [⟨0⟩] (.ok o) := by
  let calls : List (ModelCall Float) := [.insert .damperSystem none, .insert .springDamper (some ⟨0⟩),
    .set ⟨1⟩ .springSupportMass 140, .set ⟨1⟩ .stiffness 140, .set ⟨1⟩ .dampingConstant 140]
  let m := ModelCall.performAll calls Registry.empty
  have ht : m.Tidy := .performAll .empty calls
  have hload : ofJsonText? systemWithSpring = some m := by
    rw [systemWithSpring, ofJsonText?_textOf]
    · decide +kernel
    · simp only [List.forall_mem_cons]
      exact ⟨printable_stated _ _ _ _, printable_stated _ _ _ _, List.forall_mem_nil _⟩
  obtain ⟨-, hclimbs, hsearches, htidy⟩ := loaded_walks_end_without_circles hload
  obtain ⟨hin, hlists, hends⟩ := htidy ht
  have hroot : m.children ⟨0⟩ = .ok [⟨1⟩] := by decide +kernel
  have hspring : m.rootOf ⟨1⟩ = .ok ⟨0⟩ := by decide +kernel
  obtain ⟨root, he, -⟩ := children_ok_iff.mp hroot
  exact ⟨m, hload, hclimbs.mpr hin, hsearches hlists, endsWith_climb_iff.mpr ⟨hspring, not_givesUp_ok⟩,
    (hends ⟨0⟩ root he).2 .stiffness⟩

def springInItself : String := textOf [stated .springDamper (some ⟨0⟩) [⟨0⟩] 140]

theorem springInItself_is_loaded :
    let m : Registry Float := ⟨#[⟨.springDamper, some ⟨0⟩, [⟨0⟩],
      [(.springSupportMass, 140), (.stiffness, 140), (.dampingConstant, 140)]⟩]⟩
    ofJsonText? springInItself = some m ∧ m.contains ⟨0⟩ = true ∧ ¬ m.Tidy ∧ (¬ ∃ x, EndsWith m.climb ⟨0⟩ x) ∧
      ¬ ∃ x, EndsWith (m.look .armMass) [⟨0⟩] x := by
  intro m
  have hload : ofJsonText? springInItself = some m := by
    rw [springInItself, ofJsonText?_textOf]
    · decide +kernel
    · simp only [List.forall_mem_cons]
      exact ⟨printable_stated _ _ _ _, List.forall_mem_nil _⟩
  have hin : m.IsIn ⟨0⟩ ⟨0⟩ := by
    have h : m.container ⟨0⟩ = .ok (some ⟨0⟩) := by decide +kernel
    exact h
  have hsearch : m.findHolder ⟨0⟩ .armMass = .error (.endlessContainment ⟨0⟩) := by decide +kernel
  have hclimb : m.rootOf ⟨0⟩ = .error (.endlessContainment ⟨0⟩) := by decide +kernel
  refine ⟨hload, by decide +kernel, fun ht => ht.isIn_acyclic ⟨0⟩ (.single hin), ?_, ?_⟩
  · rintro ⟨x, hx⟩
    obtain ⟨rfl, hgives⟩ := endsWith_climb_iff.mp hx
    exact hgives ⟨⟨0⟩, hclimb⟩
  · rintro ⟨x, hx⟩
    obtain ⟨rfl, hgives⟩ := endsWith_look_iff.mp hx
    exact hgives ⟨⟨0⟩, hsearch⟩

end Springs

end Registry

end Uncertainty
