import Uncertainty.Number.Binary64
import Uncertainty.Proofs.Store.Listing
import Uncertainty.Proofs.Store.Refinement
import Uncertainty.Store.Coverage

namespace Uncertainty

variable {ν : Type}

lemma IdSupply.upcoming_succ (s : IdSupply) (n : Nat) : s.upcoming (n + 1) = s.fresh :: s.next.upcoming n := by
  rw [upcoming, upcoming, List.range_succ_eq_map, List.map_cons, List.map_map]
  refine congrArg (s.fresh :: ·) (List.map_congr_left fun i _ => ?_)
  rw [Function.comp_apply, next, nth_skip, Nat.add_comm, Nat.succ_eq_add_one]

namespace Record

variable {template r : Record ν} {id : EntityId}

def covers (template : Record ν) (id : EntityId) (r : Record ν) : Bool := r.location.references id && template.isLike r

lemma isLike_copyTo (template : Record ν) (rid : RecordId) (parameter : Option String) (referenced : List EntityId) :
    template.isLike (template.copyTo rid parameter referenced) = true := by
  cases he : template.effect <;> simp [isLike, copyTo, copy, he]

lemma id_copyTo (template : Record ν) (rid : RecordId) (parameter : Option String) (referenced : List EntityId) :
    (template.copyTo rid parameter referenced).id = rid := rfl

structure IsCopyFor (template : Record ν) (id : EntityId) (r : Record ν) : Prop where
  like : template.isLike r = true
  type : r.location.type = template.location.type
  parameter : r.location.parameter = template.location.parameter
  referenced : r.location.referenced = [id]
  expression : r.expression? = none

lemma isCopyFor_copyTo (template : Record ν) (rid : RecordId) (id : EntityId) :
    template.IsCopyFor id (template.copyTo rid template.location.parameter [id]) where
  like := isLike_copyTo template _ _ _
  type := rfl
  parameter := rfl
  referenced := rfl
  expression := by cases he : template.effect <;> simp [expression?, copyTo, copy, he]

lemma covers_copyTo (template : Record ν) (rid : RecordId) (parameter : Option String) (id other : EntityId) :
    template.covers other (template.copyTo rid parameter [id]) = (other == id) := by
  rw [covers, isLike_copyTo, Bool.and_true, beq_eq_decide]
  simp [copyTo, Location.references]

end Record

lemma Stands.exists_insert {s : Store ν} {l : Listing ν} {r : Record ν} (hs : Stands s l)
    (hnew : ∀ a ∈ l.records, a.id ≠ r.id) : ∃ s', s.insert r = .ok s' ∧ Stands s' (l.append r) := by
  have halike := hs.insert r
  rw [Listing.insert_of_unheld hnew] at halike
  generalize s.insert r = x at halike ⊢
  cases halike with
  | ok hs' => exact ⟨_, rfl, hs'⟩

namespace Shelf

variable {template : Record ν} {id : EntityId} {ids : List EntityId} {rs : List (Record ν)}

def uncovered (template : Record ν) (rs : List (Record ν)) (ids : List EntityId) : List EntityId :=
  (ids.filter fun id => !rs.any (template.covers id)).eraseDups

def copies (template : Record ν) : IdSupply → List EntityId → List (Record ν)
  | _, [] => []
  | supply, id :: ids =>
    template.copyTo supply.fresh template.location.parameter [id] :: copies template supply.next ids

lemma uncovered_cons_of_covered (h : rs.any (template.covers id) = true) :
    uncovered template rs (id :: ids) = uncovered template rs ids := by
  rw [uncovered, List.filter_cons, h]
  rfl

lemma uncovered_cons (h : rs.any (template.covers id) = false) (rid : RecordId) :
    uncovered template rs (id :: ids) =
      id :: uncovered template (rs ++ [template.copyTo rid template.location.parameter [id]]) ids := by
  rw [uncovered, List.filter_cons, h, Bool.not_false, if_pos rfl, List.eraseDups_cons, List.filter_filter, uncovered]
  refine congrArg (fun rest => id :: List.eraseDups rest) (List.filter_congr fun other _ => ?_)
  rw [List.any_append, List.any_cons, Record.covers_copyTo, List.any_nil, Bool.or_false, Bool.not_or, Bool.and_comm]

lemma mem_uncovered : id ∈ uncovered template rs ids ↔ id ∈ ids ∧ rs.any (template.covers id) = false := by
  rw [uncovered, List.mem_eraseDups, List.mem_filter, Bool.not_eq_true']

lemma copies_are_like (template : Record ν) (supply : IdSupply) (ids : List EntityId) :
    List.Forall₂ template.IsCopyFor ids (copies template supply ids) := by
  induction ids generalizing supply with
  | nil => exact .nil
  | cons id ids ih =>
    rw [copies]
    exact .cons (template.isCopyFor_copyTo _ id) (ih supply.next)

lemma ids_copies (template : Record ν) (supply : IdSupply) (ids : List EntityId) :
    (copies template supply ids).map (·.id) = supply.upcoming ids.length := by
  induction ids generalizing supply with
  | nil => rfl
  | cons id ids ih => rw [copies, List.map_cons, ih, List.length_cons, IdSupply.upcoming_succ, Record.id_copyTo]

lemma any_copies (template : Record ν) (supply : IdSupply) (ids : List EntityId) (id : EntityId) :
    (copies template supply ids).any (template.covers id) = ids.contains id := by
  induction ids generalizing supply with
  | nil => rfl
  | cons other ids ih => rw [copies, List.any_cons, ih, Record.covers_copyTo, List.contains_cons]

lemma covered_after (supply : IdSupply) (h : id ∈ ids) :
    (rs ++ copies template supply (uncovered template rs ids)).any (template.covers id) = true := by
  rw [List.any_append, any_copies, Bool.or_eq_true, List.contains_iff_mem, mem_uncovered]
  cases rs.any (template.covers id) with
  | true => exact .inl rfl
  | false => exact .inr ⟨h, rfl⟩

section Running

variable {s : Store ν} {l : Listing ν} {supply : IdSupply}

lemma isCovered_eq (hs : Stands s l) : isCovered template id s = l.records.any (template.covers id) := by
  rw [isCovered, hs.answers.referencing]
  change (l.records.filter _).any _ = _
  rw [List.any_filter]
  rfl

lemma start_insert {r : Record ν} {s' : Store ν} (h : s.insert r = .ok s') :
    (insert r).start (⟨s, supply⟩ : Shelf (Store ν)) = (.ok (), ⟨s', supply⟩) := by
  have hr : RecordStore.insert r s = .ok s' := h
  rw [insert, Attempt.start_step]
  simp only [hr]
  rfl

lemma start_cover_of_covered (hs : Stands s l) (h : l.records.any (template.covers id) = true) :
    (cover template id).start (⟨s, supply⟩ : Shelf (Store ν)) = (.ok none, ⟨s, supply⟩) := by
  rw [cover, Attempt.start_bind]
  change Attempt.start (if isCovered template id s = true then _ else _) _ = _
  rw [if_pos ((isCovered_eq hs).trans h), Attempt.start_pure]

lemma start_cover (hs : Stands s l) (h : l.records.any (template.covers id) = false)
    (hnew : ∀ r ∈ l.records, r.id ≠ supply.fresh) :
    ∃ s', Stands s' (l.append (template.copyTo supply.fresh template.location.parameter [id])) ∧
      (cover template id).start (⟨s, supply⟩ : Shelf (Store ν)) =
        (.ok (some (template.copyTo supply.fresh template.location.parameter [id])), ⟨s', supply.next⟩) := by
  obtain ⟨s', hinsert, hs'⟩ :=
    hs.exists_insert (r := template.copyTo supply.fresh template.location.parameter [id]) hnew
  refine ⟨s', hs', ?_⟩
  rw [cover, Attempt.start_bind]
  change Attempt.start (if isCovered template id s = true then _ else _) _ = _
  rw [if_neg (by rw [isCovered_eq hs, h]; nofun), Attempt.start_bind]
  change Attempt.start (insert _ >>= fun _ => _) ⟨s, supply.next⟩ = _
  rw [Attempt.start_bind, start_insert hinsert]
  rfl

lemma start_coverAll_cons {u v w : Shelf (Store ν)} {created : Option (Record ν)} {rest : List (Record ν)}
    (hcover : (cover template id).start u = (.ok created, v))
    (hrest : (coverAll template ids).start v = (.ok rest, w)) :
    (coverAll template (id :: ids)).start u = (.ok (created.toList ++ rest), w) :=
  Attempt.start_bind_eq_ok.mpr ⟨created, v, hcover, Attempt.start_bind_eq_ok.mpr ⟨rest, w, hrest, rfl⟩⟩

lemma start_coverAll (hs : Stands s l) (hn : (supply.upcoming (uncovered template l.records ids).length).Nodup)
    (hnew : ∀ r ∈ l.records, r.id ∉ supply.upcoming (uncovered template l.records ids).length) :
    ∃ s' supply', Stands s' ⟨l.records ++ copies template supply (uncovered template l.records ids)⟩ ∧
      (coverAll template ids).start (⟨s, supply⟩ : Shelf (Store ν)) =
        (.ok (copies template supply (uncovered template l.records ids)), ⟨s', supply'⟩) := by
  induction ids generalizing s l supply with
  | nil => exact ⟨s, supply, by simpa [uncovered, copies] using hs, rfl⟩
  | cons id ids ih =>
    cases h : l.records.any (template.covers id) with
    | true =>
      rw [uncovered_cons_of_covered h] at hn hnew ⊢
      obtain ⟨s', supply', hs', hrest⟩ := ih hs hn hnew
      exact ⟨s', supply', hs', start_coverAll_cons (start_cover_of_covered hs h) hrest⟩
    | false =>
      -- The copy is a record of this entity only, so what else was missing is missing still.
      rw [uncovered_cons h supply.fresh] at hn hnew ⊢
      rw [List.length_cons, IdSupply.upcoming_succ] at hn hnew
      obtain ⟨hfresh, hn⟩ := List.nodup_cons.mp hn
      have hnow : ∀ r ∈ l.records, r.id ≠ supply.fresh := fun r hr hid => hnew r hr (hid ▸ List.mem_cons_self)
      obtain ⟨s₁, hs₁, hcover⟩ := start_cover hs h hnow
      have hlater : ∀ r ∈ (l.append (template.copyTo supply.fresh template.location.parameter [id])).records,
          r.id ∉ supply.next.upcoming (uncovered template (l.records ++
            [template.copyTo supply.fresh template.location.parameter [id]]) ids).length := by
        intro r hr hid
        rcases List.mem_append.mp hr with hr | hr
        · exact hnew r hr (List.mem_cons_of_mem _ hid)
        · rw [List.mem_singleton.mp hr, Record.id_copyTo] at hid
          exact hfresh hid
      obtain ⟨s', supply', hs', hrest⟩ := ih hs₁ hn hlater
      rw [Listing.append, List.append_assoc] at hs'
      exact ⟨s', supply', hs', start_coverAll_cons hcover hrest⟩

lemma start_coverAll_of_covered (hs : Stands s l) (h : ∀ id ∈ ids, l.records.any (template.covers id) = true) :
    (coverAll template ids).start (⟨s, supply⟩ : Shelf (Store ν)) = (.ok [], ⟨s, supply⟩) := by
  induction ids with
  | nil => rfl
  | cons id ids ih =>
    rw [List.forall_mem_cons] at h
    exact start_coverAll_cons (start_cover_of_covered hs h.1) (ih h.2)

end Running

/-- After any calls to a store, giving entities records like a template leaves what is there where it is and adds a copy
for each entity that had none, in the order in which they are first named. Then all have one, and doing it again for any
of them changes nothing. The ids that are drawn have to be new. -/
theorem coverage_adds_one_each (calls : List (StoreCall ν)) (template : Record ν) (ids : List EntityId)
    (supply : IdSupply) :
    let s := (StoreCall.performAll calls (Store.empty : Store ν)).2
    let missing := (ids.filter fun id => !s.records.any (template.covers id)).eraseDups
    (supply.upcoming missing.length).Nodup → (∀ r ∈ s.records, r.id ∉ supply.upcoming missing.length) →
      ∃ created s' supply',
        (coverAll template ids).start (⟨s, supply⟩ : Shelf (Store ν)) = (.ok created, ⟨s', supply'⟩) ∧
        s'.records = s.records ++ created ∧ SameAnswers s' (⟨s.records ++ created⟩ : Listing ν) ∧
        List.Forall₂ template.IsCopyFor missing created ∧ created.map (·.id) = supply.upcoming missing.length ∧
        (∀ id ∈ ids, ∃ r ∈ s'.records, r.location.references id = true ∧ template.isLike r = true) ∧
        ∀ again, again ⊆ ids →
          (coverAll template again).start (⟨s', supply'⟩ : Shelf (Store ν)) = (.ok [], ⟨s', supply'⟩) := by
  intro s missing hn hnew
  obtain ⟨-, hstands⟩ := Stands.empty.performAll calls
  have hs : Stands s ⟨s.records⟩ := ⟨hstands.sound, rfl⟩
  obtain ⟨s', supply', hs', hrun⟩ := start_coverAll hs hn hnew
  have hrecords : s'.records = s.records ++ copies template supply missing := congrArg Listing.records hs'.listing
  have hcovered (id : EntityId) (hid : id ∈ ids) : s'.records.any (template.covers id) = true := by
    rw [hrecords]
    exact covered_after supply hid
  refine ⟨_, s', supply', hrun, hrecords, hs'.answers, copies_are_like template supply missing,
    ids_copies template supply missing, fun id hid => ?_, fun again hagain => ?_⟩
  · obtain ⟨r, hr, hcovers⟩ := List.any_eq_true.mp (hcovered id hid)
    exact ⟨r, hr, Bool.and_eq_true_iff.mp hcovers⟩
  · exact start_coverAll_of_covered ⟨hs'.sound, rfl⟩ fun id hid => hcovered id (hagain hid)

def springsNoted : Record Float where
  id := ⟨0, 1⟩
  kind := .measurement
  nature := .epistemic
  reducibility := .partly
  onDelete := .keep
  setManually := true
  location := Location.ofAttribute .stiffness [⟨1⟩, ⟨4⟩]
  effect := some { expression := some (.distribution (.normal 27000 1200)) }
  pattern := none
  perspective := some {}
  source := some .expert

theorem springsNoted_covers_two_more :
    let s := (StoreCall.performAll [.insert springsNoted] (Store.empty : Store Float)).2
    ∃ created s' supply', (coverAll springsNoted [⟨2⟩, ⟨1⟩, ⟨3⟩, ⟨2⟩]).start (⟨s, ⟨0⟩⟩ : Shelf (Store Float)) =
        (.ok created, ⟨s', supply'⟩) ∧
      created.map (·.location.referenced) = [[⟨2⟩], [⟨3⟩]] ∧ s'.records = s.records ++ created ∧
      (coverAll springsNoted [⟨3⟩, ⟨2⟩]).start (⟨s', supply'⟩ : Shelf (Store Float)) = (.ok [], ⟨s', supply'⟩) := by
  intro s
  let missing := ([⟨2⟩, ⟨1⟩, ⟨3⟩, ⟨2⟩].filter fun id => !s.records.any (springsNoted.covers id)).eraseDups
  have hmissing : missing = [⟨2⟩, ⟨3⟩] := by decide +kernel
  have hids : s.records.map (·.id) = [⟨0, 1⟩] := by decide +kernel
  have hdrawn : ((IdSupply.mk 0).upcoming missing.length).Nodup := by
    rw [hmissing]
    decide +kernel
  have hnew : ∀ r ∈ s.records, r.id ∉ (IdSupply.mk 0).upcoming missing.length := by
    intro r hr
    have hid : r.id ∈ s.records.map (·.id) := List.mem_map_of_mem hr
    rw [hids, List.mem_singleton] at hid
    rw [hmissing, hid]
    decide +kernel
  obtain ⟨created, s', supply', hrun, hrecords, -, hcopies, -, -, hagain⟩ :=
    coverage_adds_one_each [.insert springsNoted] springsNoted [⟨2⟩, ⟨1⟩, ⟨3⟩, ⟨2⟩] ⟨0⟩ hdrawn hnew
  change List.Forall₂ _ missing _ at hcopies
  rw [hmissing] at hcopies
  refine ⟨created, s', supply', hrun, ?_, hrecords, hagain _ (by decide)⟩
  cases hcopies with
  | cons h₂ hcopies =>
    cases hcopies with
    | cons h₃ hcopies =>
      cases hcopies
      rw [List.map_cons, List.map_singleton, h₂.referenced, h₃.referenced]

end Shelf

end Uncertainty
