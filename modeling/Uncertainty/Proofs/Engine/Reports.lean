import Uncertainty.Number.Exact
import Uncertainty.Proofs.Engine.Atomicity

namespace Uncertainty

open Workspace Reaction

variable {ν : Type}

/-- What a step on a derived attribute of the system goes by when an attribute of an entity is written: the total mass
where the damping ratio follows the totals, and else what was written. -/
def trigger (id : EntityId) (a : Attribute) (system : EntityId) (d : Attribute) : Attribute × EntityId :=
  if d = .dampingRatio ∧ (a.isMass || a.isCount) = true then (.totalMass, system) else (a, id)

lemma HistoryEntry.Tells.touches {changed d d' : Attribute} {affected system : EntityId} {r : Record ν}
    {entry : HistoryEntry ν} {w w' : Workspace (Listing ν) ν}
    (h : entry.Tells w.store w.model changed affected d' system r) (hn : (w.store.records.map (·.id)).Nodup)
    (ht : Touches d w w') (hd : d' ≠ d) (hchanged : changed ≠ d) :
    entry.Tells w'.store w'.model changed affected d' system r where
  parameter := h.parameter
  derived := h.derived
  expression := h.expression
  mean := (ht.get_ne hd system).trans h.mean
  source := by
    rw [ht.find?_ne hn hchanged]
    exact h.source

namespace Pass

structure Accounts (config : Config) (id : EntityId) (a : Attribute) (v : ν) (system : EntityId) (ds : List Attribute)
    (p₀ p : Pass (Listing ν) ν) : Prop where
  nodup : (p.work.store.records.map (·.id)).Nodup
  written : p.work.model.get id a = .ok v
  model : Registry.SameBut (fun i b => i = id ∧ b = a ∨ i = system ∧ b ∈ ds) p₀.work.model p.work.model
  store : p.work.store = p.updated.foldl (fun l r => l.put r) p₀.work.store
  parameters : (p.updated.map (·.parameter?)).Sublist (ds.map fun d => some d.name)
  found : ∀ r ∈ p.updated, ∃ d ∈ ds, RecordStore.find? p.work.store d.name system = some r
  history : ∃ entries, p.history = p₀.history ++ entries ∧ config.Remembers (fun r entry => ∃ d ∈ ds,
    RecordStore.find? p.work.store d.name system = some r ∧ entry.Tells p.work.store p.work.model
      (trigger id a system d).1 (trigger id a system d).2 d system r) p.updated entries

section Steps

variable {config : Config} {id system : EntityId} {a d : Attribute} {v old : ν} {ds ds' : List Attribute}
  {change : Change ν} {p₀ p p' : Pass (Listing ν) ν}

lemma Reported.cases (h : Reported config change d p p') (hn : (p.work.store.records.map (·.id)).Nodup)
    (ht : Touches d p.work p'.work) (hne : change.parameter ≠ d) :
    p'.work.store = p.work.store ∧ Unsaid p p' ∨
      ∃ r, Filed d change.container r p.work.store p'.work.store ∧ p'.updated = p.updated ++ [r] ∧
        ∃ entries, p'.history = p.history ++ entries ∧ config.Remembers (fun r entry =>
          entry.Tells p'.work.store p'.work.model change.parameter change.affected d change.container r)
          [r] entries := by
  have htold {rule : Rule} {source : Option RecordId} {r : Record ν} (hsaid : Said config rule change source d r p p')
      (hsource : rule = .crispAdjustment ∧ source = none ∨ rule ≠ .crispAdjustment ∧ ∃ s : Record ν,
        RecordStore.find? p'.work.store change.parameter.name change.affected = some s ∧ source = some s.id) :
      ∃ entries, p'.history = p.history ++ entries ∧ config.Remembers (fun r entry =>
        entry.Tells p'.work.store p'.work.model change.parameter change.affected d change.container r)
        [r] entries := by
    obtain ⟨entries, hhistory, hentries⟩ := hsaid.history
    refine ⟨entries, hhistory, hentries.imp ?_⟩
    rintro r - _ ⟨mean, hmean, rfl⟩
    exact ⟨rfl, rfl, rfl, hmean, hsource⟩
  cases h with
  | quiet hstore hunsaid => exact .inl ⟨hstore, hunsaid⟩
  | @carried rule r hrule hrecorded hfiled hsaid =>
    obtain ⟨e, he⟩ := Option.isSome_iff_exists.mp hrecorded
    obtain ⟨s, hs, -⟩ := Option.bind_eq_some_iff.mp he
    rw [← ht.find?_ne hn hne] at hs
    refine .inr ⟨r, hfiled, hsaid.updated, htold hsaid (.inr ⟨hrule, s, hs, ?_⟩)⟩
    rw [Change.source?, hs]
    rfl
  | @adjusted r hfiled hsaid => exact .inr ⟨r, hfiled, hsaid.updated, htold hsaid (.inl ⟨rfl, rfl⟩)⟩

lemma Accounts.start (hn : (p.work.store.records.map (·.id)).Nodup) (hp : p.updated = [])
    (hset : Sets id a v old p p') : Accounts config id a v system [] p p' where
  nodup := by
    rw [hset.store]
    exact hn
  written := Registry.get_set_self hset.set
  model := (Registry.SameBut.of_set hset.set).mono fun _ _ => .inl
  store := by rw [hset.store, hset.unsaid.updated, hp, List.foldl_nil]
  parameters := by
    rw [hset.unsaid.updated, hp]
    exact List.Sublist.refl _
  found := by
    rw [hset.unsaid.updated, hp]
    exact fun _ hr => absurd hr List.not_mem_nil
  history := by
    refine ⟨[], ?_, ?_⟩
    · rw [hset.unsaid.history, List.append_nil]
    · rw [hset.unsaid.updated, hp]
      exact .nil

lemma Accounts.idle (h : Accounts config id a v system ds p₀ p) (hidle : Idle p p') :
    Accounts config id a v system ds p₀ p' := by
  obtain ⟨⟨hstore, hmodel⟩, hupdated, hhistory⟩ := hidle
  obtain ⟨hn, hwritten, hm, hs, hparameters, hfound, htold⟩ := h
  rw [← hstore] at hn hs hfound htold
  rw [← hmodel] at hwritten hm htold
  rw [← hupdated] at hs hparameters hfound htold
  rw [← hhistory] at htold
  exact ⟨hn, hwritten, hm, hs, hparameters, hfound, htold⟩

lemma Accounts.mono (h : Accounts config id a v system ds p₀ p) (hsub : ds.Sublist ds') :
    Accounts config id a v system ds' p₀ p := by
  have hmem {P : Attribute → Prop} : (∃ d ∈ ds, P d) → ∃ d ∈ ds', P d :=
    fun ⟨d, hd, hp⟩ => ⟨d, hsub.subset hd, hp⟩
  obtain ⟨entries, hhistory, hentries⟩ := h.history
  refine ⟨h.nodup, h.written, ?_, h.store, h.parameters.trans (hsub.map _), fun r hr => hmem (h.found r hr), entries,
    hhistory, hentries.imp fun r _ entry => hmem⟩
  exact h.model.mono fun _ _ => Or.imp_right (And.imp_right (hsub.subset ·))

lemma Accounts.step (h : Accounts config id a v system ds p₀ p) (hd : d ∉ ds) (ha : a ≠ d)
    (htriggers : ∀ d' ∈ ds ++ [d], (trigger id a system d').1 ≠ d)
    (hchange : trigger id a system d = (change.parameter, change.affected)) (hc : change.container = system)
    (ht : Touches d p.work p'.work)
    (hm : Registry.SameBut (fun i b => i = change.container ∧ b = d) p.work.model p'.work.model)
    (hreported : Reported config change d p p') : Accounts config id a v system (ds ++ [d]) p₀ p' := by
  subst hc
  have hlast : d ∈ ds ++ [d] := List.mem_append_right _ (List.mem_singleton.mpr rfl)
  have hne {d' : Attribute} (hd' : d' ∈ ds) : d' ≠ d := fun he => hd (he ▸ hd')
  have hfound {d' : Attribute} {r : Record ν} (hd' : d' ∈ ds)
      (hr : RecordStore.find? p.work.store d'.name change.container = some r) :
      RecordStore.find? p'.work.store d'.name change.container = some r :=
    (ht.find?_ne h.nodup (hne hd') _).trans hr
  have hmodel : Registry.SameBut (fun i b => i = id ∧ b = a ∨ i = change.container ∧ b ∈ ds ++ [d]) p₀.work.model
      p'.work.model :=
    (h.model.mono fun _ _ => Or.imp_right fun hb => ⟨hb.1, List.mem_append_left _ hb.2⟩).trans
      (hm.mono fun _ _ hb => .inr ⟨hb.1, hb.2 ▸ hlast⟩)
  have hchanged : change.parameter ≠ d := by
    have hself := htriggers d hlast
    rwa [hchange] at hself
  have hwritten := (ht.get_ne ha id).trans h.written
  have hold : ∀ r ∈ p.updated, ∃ d' ∈ ds ++ [d],
      RecordStore.find? p'.work.store d'.name change.container = some r := by
    intro r hr
    obtain ⟨d', hd', hr⟩ := h.found r hr
    exact ⟨d', List.mem_append_left _ hd', hfound hd' hr⟩
  obtain ⟨entries, hhistory, hentries⟩ := h.history
  have hkept := hentries.imp (S := fun r entry => ∃ d' ∈ ds ++ [d],
    RecordStore.find? p'.work.store d'.name change.container = some r ∧ entry.Tells p'.work.store p'.work.model
      (trigger id a change.container d').1 (trigger id a change.container d').2 d' change.container r)
    fun r _ entry ⟨d', hd', hr, htells⟩ =>
      have hmem := List.mem_append_left [d] hd'
      ⟨d', hmem, hfound hd' hr, htells.touches h.nodup ht (hne hd') (htriggers d' hmem)⟩
  rcases hreported.cases h.nodup ht hchanged with ⟨hstore, hunsaid⟩ | ⟨r, hfiled, hupdated, news, hnews, htold⟩
  · refine ⟨ht.nodup h.nodup, hwritten, hmodel, ?_, ?_, ?_, entries, ?_, ?_⟩
    · rw [hstore, hunsaid.updated, h.store]
    · rw [hunsaid.updated, List.map_append]
      exact h.parameters.trans (List.sublist_append_left _ _)
    · rwa [hunsaid.updated]
    · rw [hunsaid.history, hhistory]
    · rwa [hunsaid.updated]
  · have hdescribes := (Listing.mem_of_find? hfiled.found).2
    have hlatest : config.Remembers (fun r entry => ∃ d' ∈ ds ++ [d],
        RecordStore.find? p'.work.store d'.name change.container = some r ∧ entry.Tells p'.work.store p'.work.model
          (trigger id a change.container d').1 (trigger id a change.container d').2 d' change.container r)
        [r] news := by
      refine htold.imp fun r' hr' entry htells => ⟨d, hlast, ?_, ?_⟩
      · rw [List.mem_singleton.mp hr']
        exact hfiled.found
      · rw [hchange]
        exact htells
    refine ⟨ht.nodup h.nodup, hwritten, hmodel, ?_, ?_, ?_, entries ++ news, ?_, ?_⟩
    · rw [hfiled.put, hupdated, List.foldl_append, ← h.store]
      rfl
    · rw [hupdated, List.map_append, List.map_append]
      have hname : [r].map (·.parameter?) = [d].map fun d => some d.name :=
        congrArg ([·]) ((r.describes_iff _ _).mp hdescribes).1
      rw [hname]
      exact h.parameters.append_right _
    · intro r' hr'
      rw [hupdated] at hr'
      rcases List.mem_append.mp hr' with hr' | hr'
      · exact hold r' hr'
      · obtain rfl := List.mem_singleton.mp hr'
        exact ⟨d, hlast, hfiled.found⟩
    · rw [hnews, hhistory, List.append_assoc]
    · rw [hupdated]
      exact hkept.append hlatest

end Steps

section Writing

variable [Number ν] {config : Config} {id : EntityId} {a : Attribute} {v old : ν} {p p' : Pass (Listing ν) ν}

lemma Writes.accounts (h : Writes config id a v old p p') (hn : (p.work.store.records.map (·.id)).Nodup)
    (hp : p.updated = []) : ∃ system, p.work.model.rootOf id = .ok system ∧ p.work.model.get id a = .ok old ∧
      Accounts config id a v system [.totalMass, .totalWeight, .dampingRatio] p p' := by
  cases h with
  | @summed system _ _ before after p₁ p₂ p₃ hs hroot _ hset _ h =>
    have hderived {d : Attribute} (hd : d.isDerived = true) : a ≠ d := by
      rintro rfl
      exact Bool.false_ne_true ((Attribute.isDerived_of_sums hs).symm.trans hd)
    have hmass : trigger id a system .totalMass = (a, id) := if_neg fun hd => nomatch hd.1
    have hweight : trigger id a system .totalWeight = (a, id) := if_neg fun hd => nomatch hd.1
    have hdamping : trigger id a system .dampingRatio = (.totalMass, system) := if_pos ⟨rfl, hs⟩
    refine ⟨system, hroot, Registry.get_of_set hset.set, ?_⟩
    have h₁ : Accounts config id a v system [] p p₁ := .start hn hp hset
    have h₂ : Accounts config id a v system [.totalMass] p p₂ :=
      h₁.step List.not_mem_nil (hderived rfl) (by simpa [hmass] using hderived rfl) hmass rfl h.mass.touches
        h.mass.sameBut h.massReported
    have h₃ : Accounts config id a v system [.totalMass, .totalWeight] p p₃ :=
      h₂.step (by decide) (hderived rfl) (by simpa [hmass, hweight] using hderived rfl) hweight rfl h.weight.touches
        h.weight.sameBut h.weightReported
    exact h₃.step (by decide) (hderived rfl) (by simpa [hmass, hweight, hdamping] using hderived rfl) hdamping rfl
      h.damped.touches h.damped.sameBut h.dampingReported
  | @other system p₁ hs hroot hset hdamping hreported =>
    refine ⟨system, hroot, Registry.get_of_set hset.set, ?_⟩
    have h₁ : Accounts config id a v system [] p p₁ := .start hn hp hset
    have htrigger : trigger id a system .dampingRatio = (a, id) :=
      if_neg fun hd => Bool.false_ne_true (hs.symm.trans hd.2)
    split at hdamping
    · have ha : a ≠ .dampingRatio := by
        rintro rfl
        contradiction
      have h₂ : Accounts config id a v system [.dampingRatio] p p' :=
        h₁.step List.not_mem_nil ha (by simpa [htrigger] using ha) htrigger rfl hdamping.damped.touches
          hdamping.damped.sameBut hreported
      exact h₂.mono (by decide)
    · exact (h₁.idle hdamping).mono (List.nil_sublist _)

end Writing

end Pass

namespace Engine

variable [Number ν] {g g' : Engine ν} {id : EntityId} {a : Attribute} {v : ν} {o : Outcome ν}

/-- A write that succeeds sets the value; puts in the records that it lists, at most one for each derived attribute of
the system and each as the store has it from then on; changes no values but the one that is written and the derived
ones of the system; and remembers each of those records with the value beside it and the record of what it goes by. -/
theorem write_does_what_it_says (hg : g.Reachable) (hok : g.setAttribute id a v = (.ok o, g')) :
    ∃ system, g.model.rootOf id = .ok system ∧ g.model.get id a = .ok o.old ∧ g'.model.get id a = .ok v ∧
      Registry.SameBut (fun i b => i = id ∧ b = a ∨ i = system ∧ b.isDerived = true) g.model g'.model ∧
      SameAnswers g'.store (o.updated.foldl (fun l r => l.put r) (Listing.mk g.store.records)) ∧
      (o.updated.map (·.parameter?)).Sublist
        ([Attribute.totalMass, .totalWeight, .dampingRatio].map fun d => some d.name) ∧
      (∀ r ∈ o.updated, r.location.references system = true ∧ RecordStore.get? g'.store r.id = some r) ∧
      ∃ entries, g'.history = g.history ++ entries ∧ g.config.Remembers (fun r entry => ∃ d : Attribute,
        r.describes d.name system = true ∧ entry.Tells g'.store g'.model
          (trigger id a system d).1 (trigger id a system d).2 d system r) o.updated entries := by
  obtain ⟨p, hwrites, hupdated, hholds⟩ := writes_of_ok hg.sound hok
  obtain ⟨system, hroot, hold, h⟩ := hwrites.accounts hg.sound.ids_nodup rfl
  have hanswers : SameAnswers g'.store p.work.store := hholds.store.answers
  have hdescribes {r : Record ν} {d : Attribute} (hr : RecordStore.find? p.work.store d.name system = some r) :
      r ∈ p.work.store.records ∧ r.describes d.name system = true := Listing.mem_of_find? hr
  refine ⟨system, hroot, hold, ?_, ?_, ?_, hupdated ▸ h.parameters, ?_, ?_⟩
  · rw [hholds.model]
    exact h.written
  · rw [hholds.model]
    refine h.model.mono fun i b => Or.imp_right (And.imp_right fun hb => ?_)
    revert hb
    cases b <;> decide
  · rw [← hupdated]
    have hstore := h.store
    exact hstore ▸ hanswers
  · intro r hr
    obtain ⟨d, -, hfound⟩ := h.found r (hupdated ▸ hr)
    obtain ⟨hmem, hdesc⟩ := hdescribes hfound
    refine ⟨decide_eq_true ((r.describes_iff _ _).mp hdesc).2, ?_⟩
    rw [hanswers.get?]
    exact find?_id_of_mem h.nodup hmem
  · obtain ⟨entries, hhistory, hentries⟩ := h.history
    refine ⟨entries, hholds.history.trans hhistory, hupdated ▸ hentries.imp ?_⟩
    rintro r - entry ⟨d, -, hfound, htells⟩
    refine ⟨d, (hdescribes hfound).2, htells.parameter, htells.derived, htells.expression, ?_, ?_⟩
    · rw [hholds.model]
      exact htells.mean
    · rw [hanswers.find?]
      exact htells.source

def roots : Transcendentals :=
  let root (q : ℚ) : Option ℚ := ((List.range 100).map fun n => (n : ℚ)).find? fun r => r * r = q
  ⟨fun q r => if r = 1 / 2 then root q else none, root, fun _ => none, fun _ => none, 0⟩

def linkAnnotated : List (Request (Exact roots)) :=
  let record : Record (Exact roots) :=
    { id := ⟨0, 1⟩
      kind := default
      nature := default
      reducibility := default
      onDelete := default
      setManually := true
      location := Location.ofAttribute .crossLinkMass [⟨1⟩]
      effect := some { expression := some (.literal (.rational 4)) }
      pattern := none
      perspective := none
      source := none }
  [.addEntity .damperSystem none, .addEntity .upperTruss (some ⟨0⟩), .addEntity .springDamper (some ⟨0⟩),
    .annotate record, .setAttribute ⟨2⟩ .stiffness (.rational 1), .setAttribute ⟨2⟩ .dampingConstant (.rational 8)]

theorem link_reaches_all_derived_attributes :
    let g := (serve linkAnnotated (⟨{}, Registry.empty, Store.empty, [], ⟨0⟩⟩ : Engine (Exact roots))).2
    ∃ o g', g.setAttribute ⟨1⟩ .crossLinkMass (.rational 4) = (.ok o, g') ∧ o.updated.length = 3 ∧
      (∀ r ∈ o.updated, r.location.references ⟨0⟩ = true ∧ RecordStore.get? g'.store r.id = some r) ∧
      ∃ entries, g'.history = g.history ++ entries ∧ entries.length = 3 := by
  intro g
  have hnew : Engine.new {} = .ok (⟨{}, Registry.empty, Store.empty, [], ⟨0⟩⟩ : Engine (Exact roots)) := rfl
  have hg : g.Reachable := ⟨_, {}, _, linkAnnotated, hnew, rfl⟩
  have hlength : (g.setAttribute ⟨1⟩ .crossLinkMass (.rational 4)).1.toOption.map (·.updated.length) = some 3 := by
    decide +kernel
  have hsystem : g.model.rootOf ⟨1⟩ = .ok ⟨0⟩ := by decide +kernel
  have hremembers : g.config.recordHistory = true := by decide +kernel
  rcases hset : g.setAttribute ⟨1⟩ .crossLinkMass (.rational 4) with ⟨_ | o, g'⟩
  · rw [hset] at hlength
    cases hlength
  · rw [hset] at hlength
    have hlength : o.updated.length = 3 := Option.some.inj hlength
    obtain ⟨system, hroot, -, -, -, -, -, hupdated, entries, hhistory, hentries⟩ := write_does_what_it_says hg hset
    obtain rfl := Except.ok.inj (hsystem.symm.trans hroot)
    rw [Config.Remembers, if_pos hremembers] at hentries
    exact ⟨o, g', rfl, hlength, hupdated, entries, hhistory, hentries.length_eq.symm.trans hlength⟩

end Engine

end Uncertainty
