import Uncertainty.Proofs.Record.Encoding
import Uncertainty.Proofs.Store.Listing
import Uncertainty.Proofs.Store.Refinement
import Uncertainty.Store.Encoding

/-! A store is read back from its JSON text, record by record in the order of their arrival. -/

namespace Uncertainty

open Json

variable {ν : Type} [Number ν]

lemma Record.printable_listToJson (rs : List (Record ν)) : (listToJson rs).Printable := by
  refine .object (List.forall_mem_singleton.mpr (.array ?_))
  simp [printable_toJson]

lemma Record.listOfJson?_listToJson {rs : List (Record ν)}
    (h : ∀ r ∈ rs, ∀ e, r.expression? = some e → Expression.parse e.text = .ok e) :
    listOfJson? (listToJson rs) = some rs := by
  have hlist : list? Record.ofJson? (array (rs.map Record.toJson)) = some rs :=
    list?_map fun r hr => Record.ofJson?_toJson (h r hr)
  rw [listToJson, listOfJson?, fields?_object (by simp) (List.nodup_singleton _)]
  simpa [List.lookup_cons, required] using hlist

lemma Stands.ofJsonText_toJsonText {s : Store ν} {l : Listing ν} (hs : Stands s l)
    (h : ∀ r ∈ l.records, ∀ e, r.expression? = some e → Expression.parse e.text = .ok e) :
    ∃ s', Store.ofJsonText s.toJsonText = .ok s' ∧ Stands s' l := by
  obtain ⟨hsound, rfl⟩ := hs
  have hread : (parse? s.toJsonText).bind Record.listOfJson? = some s.records := by
    rw [Store.toJsonText, parse?_pretty (Record.printable_listToJson s.records)]
    exact Record.listOfJson?_listToJson h
  have hrecords := ofRecords s.records
  rw [Listing.ofRecords_of_nodup hsound.ids_nodup] at hrecords
  rw [Store.ofJsonText, hread]
  dsimp only
  cases hs' : Store.ofRecords s.records with
  | error e =>
    rw [hs'] at hrecords
    cases hrecords
  | ok s' =>
    rw [hs'] at hrecords
    cases hrecords with
    | ok h => exact ⟨s', rfl, h⟩

theorem store_text_reads_back [LawfulSign ν] (calls : List (StoreCall ν)) :
    let s := (StoreCall.performAll calls (Store.empty : Store ν)).2
    (∀ r ∈ s.records, ∀ e, r.expression? = some e →
      e.IsReduced ∧ e.nesting ≤ maxNesting ∧ ∀ v ∈ e.numbers, Number.IsReadable v) →
      ∃ s', Store.ofJsonText s.toJsonText = .ok s' ∧ s'.records = s.records ∧ SameAnswers s' s ∧
        ∀ later, (StoreCall.performAll later s').1 = (StoreCall.performAll later s).1 := by
  intro s hs
  obtain ⟨-, hstands⟩ := Stands.empty.performAll calls
  have hparse (r : Record ν) (hr : r ∈ s.records) (e : Expression ν) (he : r.expression? = some e) :
      Expression.parse e.text = .ok e := by
    obtain ⟨hreduced, hnesting, hnumbers⟩ := hs r hr e he
    have hw := Expression.parse_text_within hreduced hnumbers
    rwa [Within, if_pos hnesting] at hw
  have hsame : Stands s s.listing := ⟨hstands.sound, rfl⟩
  obtain ⟨s', hload, hloaded⟩ := hsame.ofJsonText_toJsonText hparse
  refine ⟨s', hload, hloaded.answers.records, hloaded.answers.trans hsame.answers.symm, fun later => ?_⟩
  exact (hloaded.performAll later).1.trans (hsame.performAll later).1.symm

def fullAndBare : List (StoreCall Float) :=
  let full : Record Float :=
    { id := ⟨0x123456789ABCDEF, 0xFEDCBA9876543210⟩
      kind := .measurement
      nature := .epistemic
      reducibility := .partly
      onDelete := .keep
      setManually := true
      location := { Location.ofAttribute .stiffness [⟨4⟩, ⟨0⟩, ⟨4⟩] with specification := "\"N/m\" \\ \x01\t\x7f" }
      effect := some {
        specification := "as measured, ±5 % \n"
        representation := .discrete
        stochasticity := .deterministic
        expression := some (.binary .sub (.distribution (.normal 27000 1200)) (.literal (-0.5))) }
      pattern := some .transient
      perspective := some { viewpoint := .subjective, specification := "" }
      source := some .expert }
  let bare : Record Float :=
    { full with
      id := ⟨0, 1⟩
      location := { type := .connector }
      effect := none
      pattern := none
      perspective := none
      source := none }
  [.insert full, .insert bare, .remove full.id, .insert full]

theorem full_and_bare_read_back :
    let s := (StoreCall.performAll fullAndBare (Store.empty : Store Float)).2
    s.records.map (·.id.low) = [1, 0xFEDCBA9876543210] ∧
      (s.records.filterMap (·.expression?)).map Expression.text = ["normal(27000, 1200) - (-0.5)"] ∧
      ∃ s', Store.ofJsonText s.toJsonText = .ok s' ∧ s'.records = s.records ∧ SameAnswers s' s := by
  intro s
  have hfit : ∀ r ∈ s.records, ∀ e ∈ r.expression?.toList,
      e.IsReduced ∧ e.nesting ≤ maxNesting ∧ ∀ v ∈ e.numbers, Number.IsReadable v := by
    decide +kernel
  obtain ⟨s', hload, hrecords, hanswers, -⟩ :=
    store_text_reads_back fullAndBare fun r hr e he => hfit r hr e (Option.mem_toList.mpr he)
  exact ⟨by decide +kernel, by decide +kernel, s', hload, hrecords, hanswers⟩

end Uncertainty
