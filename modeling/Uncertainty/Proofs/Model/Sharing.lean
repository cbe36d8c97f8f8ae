import Uncertainty.Proofs.Model.Masses
import Uncertainty.Proofs.Model.Ratio

namespace Uncertainty

variable {ν : Type}

namespace Registry

variable {m m' : Registry ν} {id system i : EntityId} {a b : Attribute}

section Rooting

variable {apart : EntityId → Attribute → Prop}

lemma SameBut.rootOf (h : SameBut apart m m') (id : EntityId) : m'.rootOf id = m.rootOf id := by
  have hwithin (levels : Nat) : m'.rootWithin levels = m.rootWithin levels := by
    induction levels with
    | zero => rfl
    | succ levels ih =>
      funext id
      rw [rootWithin, rootWithin, h.container, ih]
  rw [Registry.rootOf, Registry.rootOf, h.size, hwithin]

namespace Tidy

variable (ht : m.Tidy)
include ht

lemma rootOf_of_container (hc : m.container id = .ok (some system)) : m.rootOf id = .ok system := by
  have hroot : m.container system = .ok none := (ht.root system _ (ht.above id system hc)).mpr rfl
  obtain ⟨e, he, -⟩ := container_ok_iff.mp hc
  obtain ⟨n, hn⟩ := Nat.exists_eq_add_one_of_ne_zero (Nat.ne_of_gt (Nat.zero_lt_of_lt (lt_size_of_entity he)))
  have hsize : m.size = n + 1 := hn
  rw [rootOf, rootWithin, hc, hsize]
  change m.rootWithin (n + 1) system = _
  rw [rootWithin, hroot]
  rfl

lemma rootOf_root (hroot : m.rootOf id = .ok system) : m.rootOf system = .ok system := by
  rcases ht.container_of_rootOf hroot with hc | ⟨-, rfl⟩
  · rw [rootOf, rootWithin, (ht.root system _ (ht.above id system hc)).mpr rfl]
    rfl
  · exact hroot

end Tidy

end Rooting

/-- The entities of the zone are the same in both models and lead nowhere else; all others are in the same places. -/
structure Shares (zone : EntityId → Prop) (m m' : Registry ν) : Prop where
  places : SameBut (fun _ _ => True) m m'
  entity : ∀ {i}, zone i → m'.entity i = m.entity i
  zone_of_rootOf : ∀ {i system}, zone i → m.rootOf i = .ok system → zone system
  zone_of_child : ∀ {i parts}, zone i → m.children i = .ok parts → ∀ part ∈ parts, zone part

def DifferIn (zone : EntityId → Prop) (m m' : Registry ν) : Prop :=
  ∀ n, (∀ i, zone i → i.index.toNat ≠ n) → m'.entities[n]? = m.entities[n]?

namespace DifferIn

variable {zone : EntityId → Prop} {m'' : Registry ν} {v old : ν}

lemma of_eq (h : m' = m) : DifferIn zone m m' := fun _ _ => h ▸ rfl

lemma trans (h : DifferIn zone m m') (h' : DifferIn zone m' m'') : DifferIn zone m m'' :=
  fun n hn => (h' n hn).trans (h n hn)

lemma of_set (h : m.set id a v = .ok (old, m')) (hz : zone id) : DifferIn zone m m' := by
  intro n hn
  obtain ⟨e, -, -, rfl⟩ := set_ok h
  exact Array.getElem?_setIfInBounds_ne (hn id hz)

lemma entity (h : DifferIn zone m m') (hi : ¬ zone i) : m'.entity i = m.entity i := by
  have he := h i.index.toNat fun j hj hn => hi (index_injective hn ▸ hj)
  rw [Registry.entity, Registry.entity, he]

end DifferIn

namespace Shares

variable {zone : EntityId → Prop} (h : m.Shares zone m')
include h

lemma sameBut : SameBut (fun i _ => ¬ zone i) m m' where
  size := h.places.size
  kind := h.places.kind
  container := h.places.container
  children := h.places.children
  get i b hi := by rw [Registry.get, Registry.get, h.entity (not_not.mp hi)]

lemma get (hi : zone i) (b : Attribute) : m'.get i b = m.get i b := h.sameBut.get i b fun hn => hn hi

lemma set (hi : zone i) (a : Attribute) (v : ν) :
    Alike Eq (fun x y => y.1 = x.1 ∧ x.2.Shares zone y.2) (m.set i a v) (m'.set i a v) := by
  cases hm : m.set i a v with
  | error e =>
    rw [set_error_iff.mpr ((h.get hi a).trans (set_error_iff.mp hm))]
    exact .error rfl
  | ok x =>
    obtain ⟨old, n⟩ := x
    obtain ⟨n', hm'⟩ := set_of_get ((h.get hi a).trans (get_of_set hm)) v
    rw [hm']
    have hplaces : SameBut (fun _ _ => True) m n := (SameBut.of_set hm).mono fun _ _ _ => trivial
    have hplaces' : SameBut (fun _ _ => True) m' n' := (SameBut.of_set hm').mono fun _ _ _ => trivial
    refine .ok ⟨rfl, (hplaces.symm.trans h.places).trans hplaces', ?_, ?_, ?_⟩
    · intro j hj
      rw [entity_set hm, entity_set hm', h.entity hj]
    · exact fun hj hroot => h.zone_of_rootOf hj ((hplaces.rootOf _).symm.trans hroot)
    · exact fun hj hparts => h.zone_of_child hj ((hplaces.children _).symm.trans hparts)

lemma zone_of_findHolder (hi : zone i) {holder : EntityId} (hf : m.findHolder i a = .ok (some holder)) :
    zone holder := by
  rw [findHolder] at hf
  generalize m.size + 1 = levels at hf
  induction levels generalizing i with
  | zero => cases hf
  | succ levels ih =>
    rw [holderWithin_succ] at hf
    obtain ⟨k, -, hf⟩ := exists_of_bind_ok hf
    obtain ⟨parts, hparts, hf⟩ := exists_of_bind_ok hf
    have hzone := h.zone_of_child hi hparts
    split at hf
    · cases hf
      exact hi
    · clear hparts
      induction parts with
      | nil => cases hf
      | cons part parts ih' =>
        rw [firstAnswer] at hf
        obtain ⟨found, hfound, hf⟩ := exists_of_bind_ok hf
        cases found with
        | some found =>
          cases hf
          exact ih (hzone part List.mem_cons_self) hfound
        | none => exact ih' (fun part hpart => hzone part (List.mem_cons_of_mem _ hpart)) hf

variable [Number ν]

lemma multiplicity (hi : zone i) (a : Attribute) : m'.multiplicity i a = m.multiplicity i a := by
  rw [Registry.multiplicity, Registry.multiplicity]
  split
  · rw [h.get hi]
  · rfl

lemma totalMass (hi : zone i) : m'.totalMass i = m.totalMass i :=
  h.sameBut.totalMass fun _ hparts part hpart _ _ hn => hn (h.zone_of_child hi hparts part hpart)

lemma dampingRatio? (hi : zone i) : m'.dampingRatio? i = m.dampingRatio? i :=
  h.sameBut.dampingRatio? (fun _ hspring => ⟨fun hn => hn (h.zone_of_findHolder hi hspring),
    fun hn => hn (h.zone_of_findHolder hi hspring)⟩) fun hn => hn hi

end Shares

lemma Tidy.shares (ht : m.Tidy) (h : SameBut (fun _ _ => True) m m')
    (hentity : ∀ {i}, m.rootOf i = .ok system → m'.entity i = m.entity i) :
    Shares (fun i => m.rootOf i = .ok system) m m' where
  places := h
  entity := hentity
  zone_of_rootOf hi hroot := Except.ok.inj (hroot.symm.trans hi) ▸ ht.rootOf_root hroot
  zone_of_child {i} _ hi hparts part hpart := by
    obtain ⟨e, he, rfl⟩ := children_ok_iff.mp hparts
    have hc : m.container part = .ok (some i) := (ht.below i e he part).mp hpart
    rcases ht.container_of_rootOf hi with hinside | ⟨-, rfl⟩
    · have hroot : m.container i = .ok none := (ht.root i _ (ht.above part i hc)).mpr rfl
      cases hroot.symm.trans hinside
    · exact ht.rootOf_of_container hc

lemma eq_of_differIn {zone zone' : EntityId → Prop} {n n' : Registry ν} (hapart : ∀ i, zone i → ¬ zone' i)
    (hm : DifferIn zone m n) (hm' : DifferIn zone' m n') {k k' : Registry ν} (hn : DifferIn zone' n k)
    (hn' : DifferIn zone n' k') (hk : ∀ i, zone' i → k.entity i = n'.entity i)
    (hk' : ∀ i, zone i → k'.entity i = n.entity i) : k' = k := by
  have hfound {m m' : Registry ν} {i : EntityId} (h : m'.entity i = m.entity i) :
      m'.entities[i.index.toNat]? = m.entities[i.index.toNat]? :=
    Option.ext fun e => entity_ok_iff.symm.trans (h ▸ entity_ok_iff)
  refine congrArg Registry.mk (Array.ext_getElem? fun place => ?_)
  by_cases hz : ∃ i, zone i ∧ i.index.toNat = place
  · obtain ⟨i, hi, rfl⟩ := hz
    exact (hfound (hk' i hi)).trans (hfound (hn.entity (hapart i hi))).symm
  by_cases hz' : ∃ i, zone' i ∧ i.index.toNat = place
  · obtain ⟨i, hi, rfl⟩ := hz'
    exact (hfound (hn'.entity fun h => hapart i h hi)).trans (hfound (hk i hi)).symm
  have hout : ∀ i, zone i → i.index.toNat ≠ place := fun i hi he => hz ⟨i, hi, he⟩
  have hout' : ∀ i, zone' i → i.index.toNat ≠ place := fun i hi he => hz' ⟨i, hi, he⟩
  calc k'.entities[place]? = n'.entities[place]? := hn' place hout
    _ = m.entities[place]? := hm' place hout'
    _ = n.entities[place]? := (hm place hout).symm
    _ = k.entities[place]? := (hn place hout').symm

end Registry

end Uncertainty
