import Uncertainty.Proofs.Formula.Rules

namespace Uncertainty.Token

open Formula

variable {ν : Type} [Number ν]

def Remains (source : String) (p : Nat) (cs : List Char) : Prop :=
  ∃ before, source = String.ofList (before ++ cs) ∧ String.utf8Len before = p

namespace Remains

variable {source : String} {p : Nat} {c : Char} {text cs : List Char}

lemma start (source : String) : Remains source 0 source.toList := ⟨[], String.ofList_toList.symm, rfl⟩

lemma valid (h : Remains source p cs) : String.Pos.Raw.Valid source ⟨p⟩ := by
  obtain ⟨before, rfl, rfl⟩ := h
  exact .mk before cs rfl

lemma get_eq (h : Remains source p (c :: cs)) : String.Pos.Raw.get? source ⟨p⟩ = some c := by
  obtain ⟨before, rfl, rfl⟩ := h
  exact String.get?_of_valid before (c :: cs)

lemma after_ascii (h : Remains source p (text ++ cs)) (htext : ∀ c ∈ text, isAscii c = true) :
    Remains source (p + text.length) cs := by
  obtain ⟨before, rfl, rfl⟩ := h
  exact ⟨before ++ text, by rw [List.append_assoc], by rw [String.utf8Len_append, utf8Len_eq_length htext]⟩

lemma after_blank (h : Remains source p (c :: cs)) (hc : isBlank c = true) : Remains source (p + 1) cs := by
  have h' : Remains source p ([c] ++ cs) := h
  exact h'.after_ascii (List.forall_mem_singleton.mpr (isAscii_of_isBlank hc))

lemma slice_eq (h : Remains source p (text ++ cs)) :
    slice source p (p + String.utf8Len text) = String.ofList text := by
  obtain ⟨before, rfl, rfl⟩ := h
  rw [← List.append_assoc]
  exact String.extract_of_valid before text cs

lemma size_eq (h : Remains source p cs) : source.utf8ByteSize = p + String.utf8Len cs := by
  obtain ⟨before, rfl, rfl⟩ := h
  rw [String.utf8ByteSize_ofList, String.utf8Len_append]

lemma slice_to_end (h : Remains source p cs) : slice source p source.utf8ByteSize = String.ofList cs := by
  rw [h.size_eq]
  rw [← List.append_nil cs] at h
  exact h.slice_eq

end Remains

namespace IsTiling

variable {source : String} {p p' q : Nat} {c : Char} {t : Token ν} {ts : List (Lexeme ν)}

lemma nil (source : String) (p : Nat) : IsTiling source p ([] : List (Lexeme ν)) p where
  apart := .nil
  extent := nofun
  boundary := nofun
  matched := nofun
  denoted := nofun
  blank := fun _ hp hq => absurd hq (Nat.not_lt.mpr hp)

lemma skip (h : IsTiling source (p + 1) ts q) (hget : String.Pos.Raw.get? source ⟨p⟩ = some c)
    (hc : isBlank c = true) : IsTiling source p ts q where
  apart := h.apart
  extent := fun t ht => by
    have := h.extent t ht
    omega
  boundary := h.boundary
  matched := h.matched
  denoted := h.denoted
  blank := fun r hp hr houtside => by
    rcases Nat.eq_or_lt_of_le hp with rfl | hp
    · exact ⟨c, hget, hc⟩
    · exact h.blank r hp hr houtside

lemma cons (h : IsTiling source p' ts q) (hlt : p < p') (hle : p' ≤ q)
    (hboundary : String.Pos.Raw.Valid source ⟨p⟩ ∧ String.Pos.Raw.Valid source ⟨p'⟩)
    (hmatched : IsLongestMatch (slice source p p').toList (slice source p' source.utf8ByteSize).toList)
    (hdenoted : ∀ u, Denotes (slice source p p').toList u ↔ u = t) :
    IsTiling source p (⟨t, p, p'⟩ :: ts) q where
  apart := List.pairwise_cons.mpr ⟨fun u hu => (h.extent u hu).1, h.apart⟩
  extent := List.forall_mem_cons.mpr ⟨⟨Nat.le_refl p, hlt, hle⟩, fun u hu => by
    have := h.extent u hu
    omega⟩
  boundary := List.forall_mem_cons.mpr ⟨hboundary, h.boundary⟩
  matched := List.forall_mem_cons.mpr ⟨hmatched, h.matched⟩
  denoted := List.forall_mem_cons.mpr ⟨hdenoted, h.denoted⟩
  blank := fun r hp hr houtside => by
    rw [List.forall_mem_cons] at houtside
    obtain ⟨hhead, houtside⟩ := houtside
    have hp' : p' ≤ r := by
      dsimp only at hhead
      omega
    exact h.blank r hp' hr houtside

end IsTiling

namespace Tiles

variable {source : String} {p q : Nat} {cs rest : List Char} {ts : List (Lexeme ν)}

lemma remains (h : Tiles p cs ts q rest) (hp : Remains source p cs) : Remains source q rest := by
  induction h with
  | nil => exact hp
  | blank hc _ ih => exact ih (hp.after_blank hc)
  | token hne hlong _ _ ih =>
    exact ih (hp.after_ascii (isAscii_of_mem_rules (isLongestMatch_of_longest hne hlong).matched))

lemma isTiling (h : Tiles p cs ts q rest) (hp : Remains source p cs) : IsTiling source p ts q := by
  induction h with
  | nil => exact .nil source _
  | blank hc _ ih => exact (ih (hp.after_blank hc)).skip hp.get_eq hc
  | @token p text t cs ts q rest hne hlong ht htail ih =>
    have hmatch : IsLongestMatch text cs := isLongestMatch_of_longest hne hlong
    have hascii : ∀ c ∈ text, isAscii c = true := isAscii_of_mem_rules hmatch.matched
    have hp' : Remains source (p + text.length) cs := hp.after_ascii hascii
    have hslice : slice source p (p + text.length) = String.ofList text := by
      rw [← utf8Len_eq_length hascii]
      exact hp.slice_eq
    refine (ih hp').cons (Nat.lt_add_of_pos_right (List.length_pos_iff.mpr hne)) htail.within.1
      ⟨hp.valid, hp'.valid⟩ ?_ ?_
    · rwa [hslice, hp'.slice_to_end, String.toList_ofList, String.toList_ofList]
    · intro u
      rw [hslice, String.toList_ofList, denotes_iff hmatch.matched, ht, Option.some_inj, eq_comm]

lemma truncate (h : Tiles p cs ts q rest) : ∃ read, cs = read ++ rest ∧ Tiles p read ts q [] := by
  induction h with
  | nil => exact ⟨[], rfl, .nil⟩
  | blank hc _ ih =>
    obtain ⟨read, rfl, hread⟩ := ih
    exact ⟨_ :: read, rfl, .blank hc hread⟩
  | @token p text t cs ts q rest hne hlong ht _ ih =>
    obtain ⟨read, rfl, hread⟩ := ih
    refine ⟨text ++ read, (List.append_assoc _ _ _).symm, .token hne ?_ ht hread⟩
    rw [← List.append_assoc] at hlong
    have hle : longest (text ++ read ++ rest) ≤ (text ++ read).length := by
      rw [hlong, List.length_append]
      exact Nat.le_add_right _ _
    rw [← longest_of_le hle, hlong]

lemma exists_intercalate {text : Lexeme ν → List Char}
    (h : ∀ t ∈ ts, text t ∈ rules ∧ ofText? (text t) = some t.token) (p : Nat) :
    ∃ us q, tokens us = tokens ts ∧ Tiles p ([' '].intercalate (ts.map text)) us q [] := by
  induction ts generalizing p with
  | nil => exact ⟨[], p, rfl, .nil⟩
  | cons t ts ih =>
    rw [List.forall_mem_cons] at h
    obtain ⟨⟨hrule, htoken⟩, h⟩ := h
    have hne : text t ≠ [] := ne_nil_of_mem_rules hrule
    cases ts with
    | nil =>
      have htiles : Tiles p (text t ++ []) [⟨t.token, p, p + (text t).length⟩] (p + (text t).length) [] :=
        .token hne (by rw [List.append_nil, longest_of_mem_rules hrule]) htoken .nil
      rw [List.append_nil] at htiles
      rw [List.map_singleton, List.intercalate_singleton]
      exact ⟨[⟨t.token, p, p + (text t).length⟩], _, rfl, htiles⟩
    | cons u ts =>
      obtain ⟨us, q, hus, htiles⟩ := ih h (p + (text t).length + 1)
      refine ⟨⟨t.token, p, p + (text t).length⟩ :: us, q, by rw [tokens_cons, tokens_cons, hus], ?_⟩
      rw [List.map_cons, List.map_cons, List.intercalate_cons_cons, List.append_assoc]
      refine .token hne ?_ htoken (.blank rfl htiles)
      rw [longest_append ?_ hne, longest_of_mem_rules hrule]
      rintro _ ⟨⟩
      decide

end Tiles

lemma Stuck.isRefused {cs : List Char} {input : String} (h : Stuck ν cs input) :
    ∃ text, IsRefused ν cs text ∧ input = String.ofList text := by
  cases h with
  | @unknown c cs hc hlong =>
    exact ⟨[c], .unmatched hc fun _ _ => not_mem_rules_of_longest hlong, String.singleton_eq_ofList⟩
  | @overflow text cs hne hlong ht =>
    have hmatch : IsLongestMatch text cs := isLongestMatch_of_longest hne hlong
    obtain ⟨hnumeral, hfinite⟩ := overflow_of_ofText hmatch.matched ht
    exact ⟨text, .overflow hnumeral hmatch hfinite, rfl⟩

section Sources

variable {source : String} {ts : List (Lexeme ν)} {q : Nat} {rest : List Char}

lemma Tiles.tokenize_slice (h : Tiles 0 source.toList ts q rest) : tokenize (slice source 0 q) = .ok ts := by
  obtain ⟨read, hsource, hread⟩ := h.truncate
  have hall : Remains (String.ofList read) 0 read := ⟨[], rfl, rfl⟩
  have hsize : String.utf8Len read = q := by
    rw [← String.utf8ByteSize_ofList, (hread.remains hall).size_eq]
    rfl
  have hstart : Remains source 0 (read ++ rest) := hsource ▸ .start source
  have hslice : slice source 0 q = String.ofList read := by
    rw [← hstart.slice_eq, hsize, Nat.zero_add]
  rw [hslice]
  rw [← String.toList_ofList (l := read)] at hread
  exact hread.tokenize_eq

lemma IsTiling.tokenize_intercalate {p : Nat} (h : IsTiling source p ts q) :
    ∃ us, tokenize (" ".intercalate (ts.map fun t => slice source t.start t.stop)) = .ok us ∧
      tokens us = tokens ts := by
  have htexts : ∀ t ∈ ts, (slice source t.start t.stop).toList ∈ rules ∧
      ofText? (slice source t.start t.stop).toList = some t.token := fun t ht => by
    have hrule := (h.matched t ht).matched
    exact ⟨hrule, (denotes_iff hrule).mp ((h.denoted t ht t.token).mpr rfl)⟩
  obtain ⟨us, q', hus, htiles⟩ := Tiles.exists_intercalate htexts 0
  refine ⟨us, Tiles.tokenize_eq (q := q') ?_, hus⟩
  rw [String.toList_intercalate, List.map_map]
  exact htiles

end Sources

/-- A successful run reads the source as tokens that tile it, and the slices under them on their own, one blank apart,
as the same tokens. Otherwise what comes before the offset of the error is tiled, and what comes after it begins with no
token. -/
theorem tokens_tile_source (source : String) :
    match (tokenize source : Except (ExpressionError ν) (List (Lexeme ν))) with
    | .ok ts => IsTiling source 0 ts source.utf8ByteSize ∧
      ∃ us, tokenize (" ".intercalate (ts.map fun t => slice source t.start t.stop)) = .ok us ∧ tokens us = tokens ts
    | .error e => ∃ (ts : List (Lexeme ν)) (stop : Nat) (text : List Char),
      IsTiling source 0 ts stop ∧ tokenize (slice source 0 stop) = .ok ts ∧ String.Pos.Raw.Valid source ⟨stop⟩ ∧
      IsRefused ν (slice source stop source.utf8ByteSize).toList text ∧
      e = .malformed stop (.unknownInput (String.ofList text)) := by
  obtain ⟨ts, q, rest, htiles, hrest⟩ := exists_tiles (ν := ν) 0 source.toList
  have hremains : Remains source q rest := htiles.remains (.start source)
  have htiling : IsTiling source 0 ts q := htiles.isTiling (.start source)
  rcases hrest with rfl | ⟨input, hstuck⟩
  · have hsize : source.utf8ByteSize = q := hremains.size_eq
    rw [htiles.tokenize_eq, hsize]
    exact ⟨htiling, htiling.tokenize_intercalate⟩
  · obtain ⟨text, hrefused, rfl⟩ := hstuck.isRefused
    rw [tokenize, htiles.lex_eq, hstuck.lex_eq]
    refine ⟨ts, q, text, htiling, htiles.tokenize_slice, hremains.valid, ?_, rfl⟩
    rwa [hremains.slice_to_end, String.toList_ofList]

end Uncertainty.Token
