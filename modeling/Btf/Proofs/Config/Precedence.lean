import Btf.Config.Decoder
import Btf.Proofs.Config.Layers
import Mathlib.Data.List.TakeWhile

/-!
# Which addition counts

An addition to a layer that is there already changes what the layer says and leaves it at its place,
whether or not it is made as a fallback. So a later addition need not win, and a fallback may override.

* `Config.above`, `Config.Overruled`: the layers that count more than one, and whether one of them has
  a value for a key;
* `Config.source?_add_new`, `Config.Overruled.source?_add`, `Config.source?_add_of_not_overruled`: where
  the value of a key comes from after an addition;
* **`Config.add_wins_iff`**: an addition wins if its layer is new or is not overruled;
* `Config.fallback_keeps_new`: a fallback whose layer is new keeps every value;
* `Config.get_make`: the value of a key when a configuration is made;
* **`Config.fallback_keeps_iff`**: a fallback keeps a value if its layer is overruled or says the same,
  and the defaults of the decoder do not override what it is made with unless they share a layer.
-/

namespace Btf
namespace Config

variable {c c' : Config} {a : Addition} {layer source key : Text} {k : Key} {v w : Value}

/-! ## Layers above a layer -/

/-- The layers that count more than the layer of a name, or all of them if there is no such layer. -/
def above (c : Config) (layer : Text) : List Text := c.names.takeWhile fun l => l ≠ layer

/-- **What a layer says of a key does not count**, since a layer above it has a value. -/
def Overruled (c : Config) (layer key : Text) : Prop :=
  ∃ l ∈ c.above layer, (c.value? l key).isSome

theorem ne_of_mem_above {l : Text} (h : l ∈ c.above layer) : l ≠ layer := by
  have hne := List.mem_takeWhile_imp h
  simpa using hne

theorem above_of_not_mem (h : layer ∉ c.names) : c.above layer = c.names := by
  rw [above, List.takeWhile_eq_self_iff]
  intro l hl
  have hne : l ≠ layer := fun heq => h (heq ▸ hl)
  simpa using hne

theorem names_eq_append (h : layer ∈ c.names) : ∃ below, c.names = c.above layer ++ layer :: below := by
  obtain ⟨before, below, hnames, hbefore⟩ := List.eq_append_cons_of_mem h
  have habove : c.above layer = before := by
    rw [above, hnames, List.takeWhile_append_of_pos, List.takeWhile_cons_of_neg (by simp),
      List.append_nil]
    intro l hl
    have hne : l ≠ layer := fun heq => hbefore (heq ▸ hl)
    simpa using hne
  exact ⟨below, habove ▸ hnames⟩

theorem find?_above_eq_none (h : ¬c.Overruled layer key) :
    ((c.above layer).find? fun l => (c.value? l key).isSome) = none :=
  List.find?_eq_none.mpr fun l hl hvalue => h ⟨l, hl, hvalue⟩

theorem Overruled.find? (h : c.Overruled layer key) : ∃ l ∈ c.above layer,
    ((c.above layer).find? fun l => (c.value? l key).isSome) = some l := by
  obtain ⟨l, hl, hvalue⟩ := h
  have hsome : ((c.above layer).find? fun l => (c.value? l key).isSome).isSome :=
    List.find?_isSome.mpr ⟨l, hl, hvalue⟩
  obtain ⟨l', hfind⟩ := Option.isSome_iff_exists.mp hsome
  exact ⟨l', List.mem_of_find?_eq_some hfind, hfind⟩

theorem source?_of_names {before below : List Text} {l : Text} (hnames : c.names = before ++ below)
    (hfind : (before.find? fun l => (c.value? l key).isSome) = some l) : c.source? key = some l := by
  rw [source?, hnames, List.find?_append, hfind]
  rfl

/-! ## Where values come from after an addition -/

theorem value?_add_of_ne (h : c.add a = .ok c') (hne : layer ≠ a.layer) (key : Text) :
    c'.value? layer key = c.value? layer key := by
  rw [value?_add h, if_neg hne]

theorem value?_add_of_given (h : c.add a = .ok c') (hgiven : a.given? key = some v) :
    c'.value? a.layer key = some v := by
  rw [value?_add h, if_pos rfl, hgiven]
  rfl

theorem value?_add_of_not_given (h : c.add a = .ok c') (hgiven : a.given? key = none)
    (layer : Text) : c'.value? layer key = c.value? layer key := by
  rw [value?_add h, hgiven, Option.none_or, ite_self]

theorem find?_above_add (h : c.add a = .ok c') (key : Text) :
    ((c.above a.layer).find? fun l => (c'.value? l key).isSome) =
      (c.above a.layer).find? fun l => (c.value? l key).isSome :=
  List.find?_congr fun l hl => by rw [value?_add_of_ne h (ne_of_mem_above hl)]

/-- The layers above a layer stay above it unless it is new and not a fallback. -/
theorem names_add_append (h : c.add a = .ok c') (hplace : a.fallback = true ∨ a.layer ∈ c.names) :
    ∃ below, c'.names = c.above a.layer ++ a.layer :: below := by
  by_cases hmem : a.layer ∈ c.names
  · rw [names_add_of_mem h hmem]
    exact names_eq_append hmem
  · rw [names_add_new h hmem, if_pos (hplace.resolve_right hmem), above_of_not_mem hmem]
    exact ⟨[], rfl⟩

/-- **A key that is not given a value** has it from where it had it. -/
theorem source?_add_of_not_given (h : c.add a = .ok c') (hgiven : a.given? key = none) :
    c'.source? key = c.source? key := by
  have hvalue := value?_add_of_not_given h hgiven
  by_cases hmem : a.layer ∈ c.names
  · rw [source?, source?, names_add_of_mem h hmem]
    simp only [hvalue]
  · have hnone : (c.value? a.layer key).isSome = false := by rw [value?_eq_none hmem]; rfl
    rw [source?, source?, names_add_new h hmem]
    simp only [hvalue]
    by_cases hfallback : a.fallback = true
    · rw [if_pos hfallback, List.find?_append]
      simp [hnone]
    · rw [if_neg hfallback]
      simp [hnone]

/-- **A new layer** that is not a fallback has the values of its keys. -/
theorem source?_add_new (h : c.add a = .ok c') (hnew : a.layer ∉ c.names)
    (hfallback : a.fallback = false) (hgiven : a.given? key = some v) :
    c'.source? key = some a.layer := by
  have hvalue : (c'.value? a.layer key).isSome := by rw [value?_add_of_given h hgiven]; rfl
  rw [source?, names_add_new h hnew, if_neg (by simp [hfallback])]
  exact List.find?_cons_of_pos hvalue

/-- **Where a layer is overruled**, the value comes from the layer above that it came from. -/
theorem Overruled.source?_add (ho : c.Overruled a.layer key) (h : c.add a = .ok c')
    (hplace : a.fallback = true ∨ a.layer ∈ c.names) :
    ∃ l ∈ c.above a.layer, c.source? key = some l ∧ c'.source? key = some l := by
  obtain ⟨l, hl, hfind⟩ := ho.find?
  obtain ⟨below, hnames⟩ := names_add_append h hplace
  exact ⟨l, hl, source?_of_names List.takeWhile_append_dropWhile.symm hfind,
    source?_of_names hnames ((find?_above_add h key).trans hfind)⟩

/-- **A layer that is not overruled** has the values of the keys that it is given. -/
theorem source?_add_of_not_overruled (ho : ¬c.Overruled a.layer key) (h : c.add a = .ok c')
    (hplace : a.fallback = true ∨ a.layer ∈ c.names) (hgiven : a.given? key = some v) :
    c'.source? key = some a.layer := by
  obtain ⟨below, hnames⟩ := names_add_append h hplace
  have hvalue : (c'.value? a.layer key).isSome := by rw [value?_add_of_given h hgiven]; rfl
  rw [source?, hnames, List.find?_append, find?_above_add h, find?_above_eq_none ho, Option.none_or]
  exact List.find?_cons_of_pos hvalue

/-! ## The later addition -/

/-- **An addition that is no fallback wins** for a key that it gives a value exactly if its layer is
new, or is not overruled at its place. Its layer answers with that value in any case. -/
theorem add_wins_iff (hc : Reachable c) (h : c.add a = .ok c') (hfallback : a.fallback = false)
    (hgiven : a.given? key = some w) :
    c'.getFrom a.layer key = .ok w ∧
      ((c'.layerOf key = .ok a.layer ∧ c'.get key = .ok w) ↔
        (a.layer ∈ c.names → ¬c.Overruled a.layer key)) := by
  obtain ⟨k, hkey⟩ := lookup_of_given h hgiven
  rw [← kind_of_add h] at hkey
  have hnodup := (hc.add h).nodup_names
  have hvalue := value?_add_of_given h hgiven
  refine ⟨(getFrom_ok_iff hkey).mpr hvalue, ?_⟩
  rw [layerOf_ok_iff hnodup hkey, get_ok_iff hnodup hkey]
  constructor
  · rintro ⟨hsource, -⟩ hmem ho
    obtain ⟨l, hl, -, hsource'⟩ := ho.source?_add h (.inr hmem)
    rw [hsource'] at hsource
    exact ne_of_mem_above hl (Option.some.inj hsource)
  · intro ho
    have hsource : c'.source? key = some a.layer := by
      by_cases hmem : a.layer ∈ c.names
      · exact source?_add_of_not_overruled (ho hmem) h (.inr hmem) hgiven
      · exact source?_add_new h hmem hfallback hgiven
    exact ⟨hsource, a.layer, hsource, hvalue⟩

/-- Values for the layer that a configuration of the decoder begins with. -/
def mappedByUser (mapped : Bool) : Addition :=
  ⟨userLayer, .map [("use-mmap", .bool mapped)], false, false⟩

/-- An addition to a layer that is there already and is not overruled. -/
theorem add_wins_mappedByUser : ∃ c c' : Config,
    (make .decoder .null userLayer true).outcome = .ok c ∧ c.add (mappedByUser false) = .ok c' ∧
      userLayer ∈ c.names ∧ c'.layerOf "use-mmap" = .ok userLayer ∧
      c'.get "use-mmap" = .ok (.bool false) := by
  obtain ⟨c, hc⟩ : ∃ c, (make .decoder .null userLayer true).outcome = .ok c := ⟨_, rfl⟩
  obtain ⟨c', hc'⟩ : ∃ c', c.add (mappedByUser false) = .ok c' := by
    cases hc
    exact ⟨_, rfl⟩
  have hwins := (add_wins_iff (.make hc) hc' rfl
    (rfl : (mappedByUser false).given? "use-mmap" = some (.bool false))).2
  have habove : c.above (mappedByUser false).layer = [] := by
    cases hc
    rfl
  have hfirst : ¬c.Overruled (mappedByUser false).layer "use-mmap" := by
    rintro ⟨l, hl, -⟩
    rw [habove] at hl
    exact List.not_mem_nil hl
  refine ⟨c, c', hc, hc', ?_, hwins.mpr fun _ => hfirst⟩
  cases hc
  exact List.mem_cons_self

/-- The last addition loses, since its layer was there before the layer `a`, which has a value. -/
theorem add_loses : ∃ c c' : Config,
    ((make .decoder .null userLayer true).outcome >>= fun c =>
      c.add ⟨"a", .map [("use-mmap", .bool false)], false, false⟩) = .ok c ∧
      c.add (mappedByUser true) = .ok c' ∧ c'.layerOf "use-mmap" = .ok "a" ∧
      c'.get "use-mmap" = .ok (.bool false) := by
  refine ⟨_, _, rfl, rfl, rfl, rfl⟩

/-! ## The fallback -/

/-- **A fallback keeps a value** and its layer exactly if it gives the key none, if its layer is
overruled or if the value was that of its layer and is the same. -/
theorem fallback_keeps_key_iff (hc : Reachable c) (h : c.add a = .ok c') (hfallback : a.fallback = true)
    (hlayer : c.layerOf key = .ok source) (hget : c.get key = .ok w) :
    (c'.layerOf key = .ok source ∧ c'.get key = .ok w) ↔ ∀ v, a.given? key = some v →
      c.Overruled a.layer key ∨ (source = a.layer ∧ v = w) := by
  obtain ⟨k, hkey⟩ := lookup_of_layerOf hlayer
  have hsource := (layerOf_ok_iff hc.nodup_names hkey).mp hlayer
  obtain ⟨source', hsource', hvalue⟩ := (get_ok_iff hc.nodup_names hkey).mp hget
  cases Option.some.inj (hsource.symm.trans hsource')
  rw [← kind_of_add h] at hkey
  have hnodup := (hc.add h).nodup_names
  rw [layerOf_ok_iff hnodup hkey, get_ok_iff hnodup hkey]
  cases hgiven : a.given? key with
  | none =>
    have hsame := (source?_add_of_not_given h hgiven).trans hsource
    refine ⟨fun _ v hv => (by cases hv), fun _ => ⟨hsame, source, hsame, ?_⟩⟩
    rw [value?_add_of_not_given h hgiven, hvalue]
  | some v =>
    by_cases ho : c.Overruled a.layer key
    · obtain ⟨l, hl, hbefore, hafter⟩ := ho.source?_add h (.inl hfallback)
      cases Option.some.inj (hsource.symm.trans hbefore)
      refine ⟨fun _ _ _ => .inl ho, fun _ => ⟨hafter, source, hafter, ?_⟩⟩
      rw [value?_add_of_ne h (ne_of_mem_above hl), hvalue]
    · have hafter := source?_add_of_not_overruled ho h (.inl hfallback) hgiven
      have hgiven' := value?_add_of_given h hgiven
      constructor
      · rintro ⟨hsame, l, hl, hvalue'⟩ _ ⟨⟩
        cases Option.some.inj (hafter.symm.trans hsame)
        cases Option.some.inj (hafter.symm.trans hl)
        exact .inr ⟨rfl, Option.some.inj (hgiven'.symm.trans hvalue')⟩
      · intro hsame
        obtain ⟨rfl, rfl⟩ := (hsame v rfl).resolve_left ho
        exact ⟨hafter, a.layer, hafter, hgiven'⟩

/-- **A fallback whose layer is new** keeps every value. -/
theorem fallback_keeps_new (hc : Reachable c) (h : c.add a = .ok c') (hfallback : a.fallback = true)
    (hnew : a.layer ∉ c.names) (hlayer : c.layerOf key = .ok source) (hget : c.get key = .ok w) :
    c'.layerOf key = .ok source ∧ c'.get key = .ok w := by
  obtain ⟨k, hkey⟩ := lookup_of_layerOf hlayer
  have hsource := (layerOf_ok_iff hc.nodup_names hkey).mp hlayer
  have hover : c.Overruled a.layer key := by
    refine ⟨source, ?_, isSome_of_source? hsource⟩
    rw [above_of_not_mem hnew]
    exact List.mem_of_find?_eq_some hsource
  exact (fallback_keeps_key_iff hc h hfallback hlayer hget).mpr fun _ _ => .inl hover

/-- The value of a key is the first value that a layer has for it. -/
theorem source?_bind_value? (c : Config) (key : Text) :
    ((c.source? key).bind fun layer => c.value? layer key) =
      c.names.findSome? fun layer => c.value? layer key := by
  rw [source?]
  induction c.names with
  | nil => rfl
  | cons layer names ih =>
    rw [List.find?_cons, List.findSome?_cons]
    cases hvalue : c.value? layer key with
    | none => exact ih
    | some v => exact hvalue

/-- **The value of a key when a configuration is made** is the one that it is made with, or else the
default; where both are values of one layer, the default comes first. -/
theorem get_make {kind : ConfigKind} {name : Text}
    (h : (make kind v name true).outcome = .ok c) (hdefaults : kind.defaults.isTrue = true)
    (hkey : kind.schema.lookup (.str key) = .ok k) :
    let given := (Addition.start v name).given? key
    let default := (Addition.defaults kind).given? key
    c.get key = answer (if name = defaultLayer then default.or given else given.or default)
      (.noLayer (c.fullName key)) := by
  intro given default
  have hnodup := (Reachable.make h).nodup_names
  rw [outcome_make, bind_eq_ok, hdefaults, Bool.and_self] at h
  obtain ⟨c₁, h₁, h₂⟩ := h
  replace h₁ : Config.add { kind } (.start v name) = .ok c₁ := h₁
  replace h₂ : c₁.add (.defaults kind) = .ok c := h₂
  have hnames₁ : c₁.names = [name] := names_add_new h₁ List.not_mem_nil
  have hvalue₁ : c₁.value? name key = given := by
    rw [value?_add h₁, if_pos (show name = (Addition.start v name).layer from rfl)]
    exact Option.or_none
  have hvalue : c.value? defaultLayer key = default.or (c₁.value? defaultLayer key) :=
    (value?_add h₂ defaultLayer key).trans (if_pos rfl)
  have hkind : c.kind = kind := (kind_of_add h₂).trans (kind_of_add h₁)
  rw [← hkind] at hkey
  rw [get_eq hnodup hkey, source?_bind_value?]
  congr 1
  by_cases hname : name = defaultLayer
  · have hmem : (Addition.defaults kind).layer ∈ c₁.names := by
      rw [hnames₁, hname]
      exact List.mem_singleton_self _
    rw [hname] at hvalue₁
    rw [if_pos hname, names_add_of_mem h₂ hmem, hnames₁, hname]
    simp [hvalue, hvalue₁]
  · have hnew : (Addition.defaults kind).layer ∉ c₁.names := by
      rw [hnames₁, List.mem_singleton]
      exact Ne.symm hname
    have hnames : c.names = [name, defaultLayer] := by
      rw [names_add_new h₂ hnew, hnames₁]
      rfl
    have hnone : c₁.value? defaultLayer key = none := value?_eq_none hnew
    rw [hnone, Option.or_none] at hvalue
    rw [← value?_add_of_ne h₂ hname] at hvalue₁
    rw [if_neg hname, hnames, List.findSome?_cons, hvalue₁]
    cases given with
    | none => simp [hvalue]
    | some v => rfl

/-! ## The decoder -/

/-- **Every key of the decoder** has a default. -/
theorem exists_default (hkey : key ∈ ConfigKind.decoder.schema.keyNames) :
    (∃ k, ConfigKind.decoder.schema.lookup (.str key) = .ok k) ∧
      ∃ d, (Addition.defaults .decoder).given? key = some d := by
  have hmem : key ∈ (["string-encoding", "string-errors", "use-mmap"] : List Text) := hkey
  simp only [List.mem_cons, List.not_mem_nil, or_false] at hmem
  rcases hmem with rfl | rfl | rfl <;> exact ⟨⟨_, rfl⟩, _, rfl⟩

/-- The value of a key of the decoder is the one that the configuration is made with or the default,
unless the configuration is made under the name of the defaults and says something else. -/
theorem get_decoder_iff {name : Text} (h : (make .decoder v name true).outcome = .ok c)
    (hkey : key ∈ ConfigKind.decoder.schema.keyNames) :
    ∃ w, ((Addition.start v name).given? key).or ((Addition.defaults .decoder).given? key) = some w ∧
      (c.get key = .ok w ↔
        (name = defaultLayer → (Addition.defaults .decoder).given? key = some w)) := by
  obtain ⟨⟨k, hk⟩, d, hd⟩ := exists_default hkey
  have hget := get_make h rfl hk
  dsimp only at hget
  rw [hget, hd]
  cases (Addition.start v name).given? key with
  | none => exact ⟨d, rfl, fun _ _ => rfl, fun _ => by simp [answer]⟩
  | some u =>
    refine ⟨u, rfl, ?_⟩
    rw [answer_ok_iff]
    by_cases hname : name = defaultLayer <;> simp [hname]

/-- **A fallback keeps a value** and its layer exactly if it gives the key none, if its layer is
overruled or if the value was that of its layer and is the same. So **the value of a key of the
decoder** is the one that its configuration is made with or else the default, exactly if the name that
it is made under is not that of the defaults or the default is the same. -/
theorem fallback_keeps_iff (key : Text) :
    (∀ {c c' : Config} {a : Addition} {source : Text} {w : Value}, Reachable c →
      c.add a = .ok c' → a.fallback = true → c.layerOf key = .ok source → c.get key = .ok w →
      ((c'.layerOf key = .ok source ∧ c'.get key = .ok w) ↔ ∀ v, a.given? key = some v →
        c.Overruled a.layer key ∨ (source = a.layer ∧ v = w))) ∧
    ∀ {v : Value} {name : Text} {c : Config}, (make .decoder v name true).outcome = .ok c →
      key ∈ ConfigKind.decoder.schema.keyNames → ∃ w,
        ((Addition.start v name).given? key).or ((Addition.defaults .decoder).given? key) = some w ∧
        (c.get key = .ok w ↔
          (name = defaultLayer → (Addition.defaults .decoder).given? key = some w)) :=
  ⟨fallback_keeps_key_iff, get_decoder_iff⟩

/-- A configuration of the decoder that names another codec. -/
def asciiNames : Value := .map [("string-encoding", .str "ascii")]

/-- A fallback for a layer that is overruled, and the decoder with a codec that is not the default. -/
theorem fallback_keeps_overruled :
    (∃ c c' : Config, ((make .decoder .null userLayer true).outcome >>= fun c =>
        c.add ⟨"a", .map [("use-mmap", .bool false)], false, false⟩) = .ok c ∧
      c.add { mappedByUser true with fallback := true } = .ok c' ∧
      c'.layerOf "use-mmap" = .ok "a" ∧ c'.get "use-mmap" = .ok (.bool false)) ∧
    ∃ c : Config, (make .decoder asciiNames userLayer true).outcome = .ok c ∧
      c.get "string-encoding" = .ok (.str "ascii") := by
  constructor
  · obtain ⟨c₁, h₁⟩ : ∃ c, (make .decoder .null userLayer true).outcome = .ok c := ⟨_, rfl⟩
    obtain ⟨c, h⟩ : ∃ c, c₁.add ⟨"a", .map [("use-mmap", .bool false)], false, false⟩ = .ok c := by
      cases h₁
      exact ⟨_, rfl⟩
    obtain ⟨c', h'⟩ : ∃ c', c.add { mappedByUser true with fallback := true } = .ok c' := by
      cases h₁
      cases h
      exact ⟨_, rfl⟩
    have hanswers : c.layerOf "use-mmap" = .ok "a" ∧ c.get "use-mmap" = .ok (.bool false) ∧
        c.above userLayer = ["a"] ∧ c.value? "a" "use-mmap" = some (.bool false) := by
      cases h₁
      cases h
      exact ⟨rfl, rfl, rfl, rfl⟩
    obtain ⟨hlayer, hget, habove, hvalue⟩ := hanswers
    have hover : c.Overruled userLayer "use-mmap" :=
      ⟨"a", habove ▸ List.mem_singleton_self _, by rw [hvalue]; rfl⟩
    have hkeeps := (fallback_keeps_iff _).1 ((Reachable.make h₁).add h) h' rfl hlayer hget
    exact ⟨c, c', bind_eq_ok.mpr ⟨c₁, h₁, h⟩, h', hkeeps.mpr fun _ _ => .inl hover⟩
  · obtain ⟨c, h⟩ : ∃ c, (make .decoder asciiNames userLayer true).outcome = .ok c := ⟨_, rfl⟩
    have hkey : ("string-encoding" : Text) ∈ ConfigKind.decoder.schema.keyNames :=
      List.mem_cons_self
    obtain ⟨w, hw, hget⟩ := (fallback_keeps_iff _).2 h hkey
    have hascii : some (.str "ascii") = some w := hw
    cases hascii
    exact ⟨c, h, hget.mpr fun hname => absurd hname (by decide)⟩

/-- The defaults override what a configuration is made with under their own name. -/
theorem fallback_overrides : ∃ c c' : Config,
    (make .decoder asciiNames defaultLayer false).outcome = .ok c ∧
      c.layerOf "string-encoding" = .ok defaultLayer ∧
      c.get "string-encoding" = .ok (.str "ascii") ∧
      c.add (Addition.defaults .decoder) = .ok c' ∧
      (make .decoder asciiNames defaultLayer true).outcome = .ok c' ∧
      c'.get "string-encoding" = .ok (.str "utf-8") :=
  ⟨_, _, rfl, rfl, rfl, rfl, rfl, rfl⟩

end Config
end Btf
