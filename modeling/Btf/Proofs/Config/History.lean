import Btf.Config.Decoder
import Btf.Proofs.Config.Layers

/-!
# Configurations as their history

What a configuration answers is settled by the additions that were made to it: in which order the
layers were first named, and what each was given last.

* `History.rank`: the names of the layers, those of fallbacks last;
* `History.last?`, `History.source?`: the last value that a layer was given for a key, and the first
  layer that was given one;
* `Config.Records`: a configuration stands as its history says, `Config.Records.add`: and still does
  after an addition;
* **`Config.answers_of_history`**: every answer is the one of the history.
-/

namespace Btf

/-! ## What a history says -/

namespace History

/-- The additions that name a layer for the first time. -/
def firsts : List Addition → List Addition
  | [] => []
  | a :: as => a :: (firsts as).filter fun b => b.layer ≠ a.layer

/-- **The order of the layers**: those not first named by a fallback, from the latest to the earliest,
and then those that were, from the earliest to the latest. -/
def rank (as : List Addition) : List Text :=
  ((firsts as).filter fun a => !a.fallback).reverse.map Addition.layer ++
    ((firsts as).filter fun a => a.fallback).map Addition.layer

/-- The last value that a layer was given for a key. -/
def last? (as : List Addition) (layer key : Text) : Option Value :=
  as.reverse.findSome? fun a => if a.layer = layer then a.given? key else none

/-- A layer was ever given a value for a key. -/
def isGiven (as : List Addition) (layer key : Text) : Bool :=
  as.any fun a => a.layer = layer && (a.given? key).isSome

/-- The first layer that was ever given a value for a key. -/
def source? (as : List Addition) (key : Text) : Option Text :=
  (rank as).find? fun layer => isGiven as layer key

variable {as : List Addition} {a : Addition} {layer key : Text}

theorem mem_map_firsts : layer ∈ (firsts as).map Addition.layer ↔ layer ∈ as.map Addition.layer := by
  induction as with
  | nil => exact Iff.rfl
  | cons a as ih =>
    rw [firsts, List.map_cons, List.map_cons, List.mem_cons, List.mem_cons, ← ih]
    refine or_congr_right' fun hne => ?_
    simp only [List.mem_map, List.mem_filter, decide_eq_true_eq]
    constructor
    · rintro ⟨b, ⟨hb, -⟩, rfl⟩
      exact ⟨b, hb, rfl⟩
    · rintro ⟨b, hb, rfl⟩
      exact ⟨b, ⟨hb, hne⟩, rfl⟩

theorem firsts_concat_new (hnew : a.layer ∉ as.map Addition.layer) :
    firsts (as ++ [a]) = firsts as ++ [a] := by
  induction as with
  | nil => rfl
  | cons b as ih =>
    rw [List.map_cons, List.mem_cons, not_or] at hnew
    rw [List.cons_append, firsts, firsts, ih hnew.2, List.filter_append]
    simp [hnew.1]

theorem firsts_concat_of_mem (hmem : a.layer ∈ as.map Addition.layer) :
    firsts (as ++ [a]) = firsts as := by
  induction as with
  | nil => exact absurd hmem List.not_mem_nil
  | cons b as ih =>
    rw [List.cons_append, firsts, firsts]
    by_cases h : a.layer ∈ as.map Addition.layer
    · rw [ih h]
    · -- only `b` names the layer before, and what comes after `b` is without that name
      have hab : a.layer = b.layer := (List.mem_cons.mp hmem).resolve_right h
      rw [firsts_concat_new h, List.filter_append]
      simp [hab]

theorem mem_rank : layer ∈ rank as ↔ layer ∈ as.map Addition.layer := by
  rw [← mem_map_firsts, rank, List.mem_append]
  simp only [List.mem_map, List.mem_reverse, List.mem_filter]
  constructor
  · rintro (⟨b, ⟨hb, -⟩, rfl⟩ | ⟨b, ⟨hb, -⟩, rfl⟩)
    · exact ⟨b, hb, rfl⟩
    · exact ⟨b, hb, rfl⟩
  · rintro ⟨b, hb, rfl⟩
    by_cases hfallback : b.fallback = true
    · exact .inr ⟨b, ⟨hb, hfallback⟩, rfl⟩
    · exact .inl ⟨b, ⟨hb, by simpa using hfallback⟩, rfl⟩

/-- **The order of the layers** stays as it is when an addition names one of them. -/
theorem rank_concat_of_mem (hmem : a.layer ∈ rank as) : rank (as ++ [a]) = rank as := by
  rw [rank, firsts_concat_of_mem (mem_rank.mp hmem), rank]

/-- **A new layer** comes first in this order, or last where it is that of a fallback. -/
theorem rank_concat_new (hnew : a.layer ∉ rank as) :
    rank (as ++ [a]) = if a.fallback then rank as ++ [a.layer] else a.layer :: rank as := by
  rw [rank, firsts_concat_new (mt mem_rank.mpr hnew), rank]
  by_cases hfallback : a.fallback = true <;> simp [hfallback]

theorem last?_concat : last? (as ++ [a]) layer key =
    if layer = a.layer then (a.given? key).or (last? as layer key) else last? as layer key := by
  rw [last?, List.reverse_append, List.reverse_singleton, List.singleton_append,
    List.findSome?_cons, last?]
  by_cases h : layer = a.layer
  · rw [if_pos h, if_pos h.symm]
    cases a.given? key <;> rfl
  · rw [if_neg h, if_neg (Ne.symm h)]

/-- A layer has a last value for a key if it was ever given one. -/
theorem isSome_last? : (last? as layer key).isSome = isGiven as layer key := by
  rw [Bool.eq_iff_iff, last?, List.findSome?_isSome_iff, isGiven, List.any_eq_true]
  simp [apply_ite]

end History

/-! ## A configuration and its history -/

namespace Config

variable {c c' : Config} {as bs : List Addition} {a : Addition} {key : Text} {k : Key}

/-- **A configuration stands as its history says**: its layers are in that order and have the values
that they were given last. -/
structure Records (c : Config) (as : List Addition) : Prop where
  names : c.names = History.rank as
  value : ∀ layer key, c.value? layer key = History.last? as layer key

theorem records_empty (kind : ConfigKind) : Records { kind } [] where
  names := rfl
  value _ _ := rfl

/-- **After an addition** it stands as the longer history says. -/
theorem Records.add (hc : c.Records as) (h : c.add a = .ok c') : c'.Records (as ++ [a]) where
  names := by
    by_cases hmem : a.layer ∈ c.names
    · rw [names_add_of_mem h hmem, History.rank_concat_of_mem (hc.names ▸ hmem), hc.names]
    · rw [names_add_new h hmem, History.rank_concat_new (hc.names ▸ hmem), hc.names]
  value layer key := by rw [value?_add h, History.last?_concat, hc.value]

/-- **Any number of additions** are recorded in their order. -/
theorem Records.addAll (hc : c.Records as) (h : c.addAll bs = .ok c') : c'.Records (as ++ bs) := by
  induction bs generalizing c as with
  | nil =>
    cases h
    rw [List.append_nil]
    exact hc
  | cons b bs ih =>
    rw [addAll_cons, bind_eq_ok] at h
    obtain ⟨c₁, h₁, h⟩ := h
    rw [List.append_cons]
    exact ih (hc.add h₁) h

theorem Records.source? (hc : c.Records as) (key : Text) :
    c.source? key = History.source? as key := by
  simp only [Config.source?, History.source?, hc.names, hc.value, History.isSome_last?]

/-- **Every answer is the one of the history.** The value of a key comes from the first layer, in their
order, that was ever given one, and is the last that it was given. A layer answers with the last value
that it was given, and there is no answer where there is no such layer or no such value. -/
theorem answers_of_history {kind : ConfigKind} {v : Value} {name : Text} {withDefaults : Bool}
    {later : List Addition}
    (h : ((make kind v name withDefaults).outcome >>= fun c => c.addAll later) = .ok c)
    (hkey : kind.schema.lookup (.str key) = .ok k) :
    let as := Addition.ofMake kind v name withDefaults ++ later
    c.layerOf key = answer (History.source? as key) (.noLayer (c.fullName key)) ∧
      c.get key = answer ((History.source? as key).bind fun layer => History.last? as layer key)
        (.noLayer (c.fullName key)) ∧
      ∀ layer, c.getFrom layer key =
        answer (History.last? as layer key) (.notInLayer (c.fullName key) layer) := by
  obtain ⟨c₁, h₁, h₂⟩ := bind_eq_ok.mp h
  have hnodup := ((Reachable.make h₁).addAll h₂).nodup_names
  rw [outcome_make_eq_addAll, ← addAll_append] at h
  have hrecords := (records_empty kind).addAll h
  have hkind : c.kind = kind :=
    addAll_induction (P := fun c => c.kind = kind) rfl (fun hc h => (kind_of_add h).trans hc) h
  rw [← hkind] at hkey
  rw [List.nil_append] at hrecords
  refine ⟨?_, ?_, fun layer => ?_⟩
  · rw [layerOf_eq hnodup hkey, hrecords.source?]
  · simp only [get_eq hnodup hkey, hrecords.source?, hrecords.value]
  · rw [getFrom_eq hkey, hrecords.value]

/-- A layer that is named again, one whose only value is dropped and a further fallback. -/
def laterAdditions : List Addition :=
  [⟨"a", .map [("string-encoding", .null)], true, false⟩,
   ⟨"site", .map [("string-encoding", .str "latin-1")], false, true⟩,
   ⟨"user", .map [("string-encoding", .str "ascii")], false, false⟩]

theorem answers_of_laterAdditions : ∃ c : Config,
    ((make .decoder .null "user" true).outcome >>= fun c => c.addAll laterAdditions) = .ok c ∧
      c.layerOf "string-encoding" = .ok "user" ∧ c.get "string-encoding" = .ok (.str "ascii") ∧
      c.getFrom "site" "string-encoding" = .ok (.str "latin-1") ∧
      c.getFrom "a" "string-encoding" =
        .error (.notInLayer "btf-parser-conf/string-encoding" "a") := by
  obtain ⟨c, hc⟩ : ∃ c : Config,
      ((make .decoder .null "user" true).outcome >>= fun c => c.addAll laterAdditions) = .ok c :=
    ⟨_, rfl⟩
  obtain ⟨hlayer, hget, hfrom⟩ := answers_of_history hc
    (rfl : ConfigKind.decoder.schema.lookup (.str "string-encoding") = .ok _)
  refine ⟨c, hc, hlayer, hget, hfrom "site", (hfrom "a").trans ?_⟩
  cases hc
  rfl

end Config
end Btf
