import Uncertainty.Number.Binary64
import Uncertainty.Proofs.Engine.Effects
import Uncertainty.Proofs.Number.FloatSign
import Uncertainty.Proofs.Reaction.Nesting
import Uncertainty.Proofs.Store.Encoding

/-! What an engine has on record can be written out and loaded again after any requests, for no derived expression nests
deeper than the parser goes. -/

namespace Uncertainty

open Workspace Reaction

variable {ν : Type} [Number ν]

def Request.Fits : Request ν → Prop
  | addEntity _ _ => True
  | annotate r => ∀ e, r.expression? = some e → e.Fits 200
  | setAttribute _ _ _ => True

lemma Listing.Fits.append {l : Listing ν} (h : l.Fits) {r : Record ν} (hr : ∀ e, r.expression? = some e → e.Fits 200) :
    (l.append r).Fits := by
  intro r' hr' e he
  rcases List.mem_append.mp hr' with hr' | hr'
  · exact h r' hr' e he
  · obtain rfl := List.mem_singleton.mp hr'
    refine ⟨(hr e he).mono (by omega), fun a _ => (hr e he).mono ?_⟩
    cases a <;> decide

variable [LawfulNegation ν]

section Steps

variable {config : Sampling} {change : Change ν} {delta : ν} {w w' : Workspace (Listing ν) ν} (h : w.store.Fits)
include h

lemma Moved.fits {d : Attribute} (hd : d.deepest = 242)
    (hp : (change.parameter.isMass || change.parameter.isCount) = true)
    (hm : Moved config ⟨d, .incremental⟩ change delta w w') : w'.store.Fits := by
  have hshallow {a : Attribute} (ha : (a.isMass || a.isCount) = true) : a.deepest ≤ 200 := by
    revert ha
    cases a <;> decide
  cases hm with
  | carried _ _ hc => exact hc.fits_total h hd (hshallow hp)
  | shifted _ hs => exact hs.fits_total h hd
  | plain _ _ hstore => rwa [hstore]

lemma Damped.fits (hd : Damped config change w w') : w'.store.Fits := by
  cases hd with
  | same hs => rwa [hs.1]
  | carried hc => exact hc.fits_ratio h
  | absorbed hs => exact hs.fits_ratio h
  | plain _ hstore => rwa [hstore]

lemma Weighed.fits {config : Config} (hp : (change.parameter.isMass || change.parameter.isCount) = true)
    (hw : Weighed config change delta w w') : w'.store.Fits := by
  rcases hw with ⟨-, hm⟩ | ⟨-, hs⟩
  · exact hm.fits h rfl hp
  · rwa [hs.1]

lemma Wrote.fits {config : Config} {id : EntityId} {a : Attribute} {v : ν} (hw : Wrote config id a v w w') :
    w'.store.Fits := by
  cases hw with
  | summed hsum _ _ _ _ hstore _ htotaled =>
    obtain ⟨_, _, hdamped⟩ := htotaled.damping
    exact hdamped.fits (htotaled.weight.fits (htotaled.mass.fits (hstore ▸ h) rfl hsum) hsum)
  | other _ _ _ hstore _ hdamped => exact hdamped.fits (hstore ▸ h)

end Steps

namespace Engine

structure IsLoadable (g : Engine ν) : Prop where
  sound : g.store.Sound
  fits : g.store.listing.Fits

variable {g : Engine ν}

lemma Does.fits (h : g.IsLoadable) {q : Request ν} (hq : q.Fits) {l : Listing ν} {m : Registry ν}
    (hdoes : g.Does q l m) : l.Fits := by
  cases hdoes with
  | noted => exact h.fits.append hq
  | wrote _ hwrote => exact hwrote.fits h.fits
  | entered | unentered | unnoted | unwritten => exact h.fits

lemma respond_isLoadable (h : g.IsLoadable) {q : Request ν} (hq : q.Fits) : (g.respond q).2.IsLoadable := by
  obtain ⟨hsound, -, hdoes⟩ := respond_does h.sound q
  exact ⟨hsound, hdoes.fits h hq⟩

theorem snapshot_loads_back [IdSource] [LawfulSign ν] {config : Config} {g₀ : Engine ν}
    (hnew : Engine.new config = .ok g₀)
    (qs : List (Request ν)) (hqs : ∀ q ∈ qs, q.Fits) :
    let g := (serve qs g₀).2
    (∀ r ∈ g.store.records, ∀ e, r.expression? = some e → e.IsReduced ∧ e.nesting ≤ maxNesting) ∧
      ((∀ r ∈ g.store.records, ∀ e, r.expression? = some e → ∀ v ∈ e.numbers, Number.isFinite v = true →
        Number.IsReadable v) → ∃ s, Store.ofJsonText g.store.toJsonText = .ok s ∧ s.records = g.store.records) := by
  intro g
  have hstart : g₀.IsLoadable := by
    obtain rfl := new_ok hnew
    exact ⟨Store.sound_empty, fun _ hr => absurd hr List.not_mem_nil⟩
  have h : g.IsLoadable := serve_keeps (I := IsLoadable) (fun h hq => respond_isLoadable h hq) qs hstart hqs
  have hfits (r : Record ν) (hr : r ∈ g.store.records) (e : Expression ν) (he : r.expression? = some e) :
      e.Fits maxNesting :=
    (h.fits r hr e he).1.mono (by decide)
  refine ⟨fun r hr e he => ⟨(hfits r hr e he).reduced, (hfits r hr e he).nesting⟩, fun hv => ?_⟩
  have hparse (r : Record ν) (hr : r ∈ g.store.records) (e : Expression ν) (he : r.expression? = some e) :
      Expression.parse e.text = .ok e := by
    have hreduced := (hfits r hr e he).reduced
    have hw := Expression.parse_text_within hreduced fun v hm => hv r hr e he v hm (hreduced.isFinite hm)
    rwa [Within, if_pos (hfits r hr e he).nesting] at hw
  obtain ⟨s, hs, hstands⟩ := (Stands.mk h.sound rfl).ofJsonText_toJsonText hparse
  exact ⟨s, hs, congrArg Listing.records hstands.listing⟩

def armsWeighed : List (Request Float) :=
  let record : Record Float :=
    { id := ⟨0, 1⟩
      kind := default
      nature := default
      reducibility := default
      onDelete := default
      setManually := true
      location := Location.ofAttribute .armMass [⟨1⟩]
      effect := some { expression := some (.distribution (.normal 5 2)) }
      pattern := none
      perspective := none
      source := some .expert }
  [.addEntity .damperSystem none, .addEntity .guidanceElement (some ⟨0⟩), .annotate record,
    .setAttribute ⟨1⟩ .armCount 3, .setAttribute ⟨1⟩ .armMass 5, .setAttribute ⟨1⟩ .jointMiddlePartMass 0.5]

theorem arms_snapshot_loads_back :
    let g := (serve armsWeighed (⟨{}, Registry.empty, Store.empty, [], ⟨0⟩⟩ : Engine Float)).2
    g.store.records.length = 3 ∧ ∃ s, Store.ofJsonText g.store.toJsonText = .ok s ∧ s.records = g.store.records := by
  intro g
  have hnew : Engine.new {} = .ok (⟨{}, Registry.empty, Store.empty, [], ⟨0⟩⟩ : Engine Float) := rfl
  have hleaf : (Expression.distribution (.normal (5 : Float) 2)).Fits 200 := ⟨by decide +kernel, by decide +kernel⟩
  have hqs : ∀ q ∈ armsWeighed, q.Fits := by
    simp only [armsWeighed, List.forall_mem_cons]
    refine ⟨trivial, trivial, ?_, trivial, trivial, trivial, fun _ hq => absurd hq List.not_mem_nil⟩
    rintro _ ⟨⟩
    exact hleaf
  have hnumbers : ∀ r ∈ g.store.records, ∀ v ∈ (r.expression?.map (·.numbers)).getD [], Number.IsReadable v := by
    decide +kernel
  refine ⟨by decide +kernel, (snapshot_loads_back hnew armsWeighed hqs).2 fun r hr e he v hv _ => hnumbers r hr v ?_⟩
  rw [he]
  exact hv

end Engine

end Uncertainty
