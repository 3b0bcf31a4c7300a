import Mathlib.Data.List.Basic
import Btf.Config.Schema
import Btf.Proofs.Outcome

/-!
# Key names

Keys and schemas are called by words over the ASCII letters, the digits and the hyphen. Whether a text is
such a word is asked with a pattern, and the end of a text is also in front of a line feed that is its
last code point. So one line feed behind a word is let through, and nothing else is.

* `Pattern`, `Pattern.written`, `Pattern.Matches`: patterns, their written form and what they match;
* `keyPattern`, `written_keyPattern`: the pattern of key names, as messages show it;
* `IsKeyWord`, `IsKeyLine`: words over the alphabet of keys, and such a word with or without a line feed;
* **`isKeyName_iff_matches`**: what keys can be called is what the pattern matches;
* **`isKeyName_iff`**: this is a word, or a word and a line feed;
* `splitOn_labelIn`, `spansLines_labelIn_iff`: full names of keys;
* **`names_exact`**: which keys and schemas can be made.
-/

namespace Btf

/-! ## Patterns -/

/-- A pattern for a part of a text. -/
inductive Pattern
  | start
  | stop
  | oneOf (ranges : List (CodePoint × CodePoint))
  | repeated (p : Pattern)
  | both (p q : Pattern)

namespace Pattern

def writtenRange (r : CodePoint × CodePoint) : Text :=
  if r.1 = r.2 then [r.1] else [r.1, charPoint '-', r.2]

/-- A pattern as it is written down. -/
def written : Pattern → Text
  | start => "^"
  | stop => "$"
  | oneOf ranges => "[" ++ ranges.flatMap writtenRange ++ "]"
  | repeated p => p.written ++ "+"
  | both p q => p.written ++ q.written

def newline : CodePoint := charPoint '\n'

/-- A code point is in one of some ranges. -/
def Within (ranges : List (CodePoint × CodePoint)) (c : CodePoint) : Prop :=
  ∃ r ∈ ranges, r.1 ≤ c ∧ c ≤ r.2

/-- **What a pattern matches**: a part of a text, with what stands before and behind it. The end of a text
is behind all of it, and also in front of a line feed with nothing behind it. -/
inductive Matches : Pattern → (before part after : Text) → Prop
  | start {after : Text} : Matches start [] [] after
  | stop {before : Text} : Matches stop before [] []
  | stopBeforeNewline {before : Text} : Matches stop before [] [newline]
  | oneOf {ranges : List (CodePoint × CodePoint)} {c : CodePoint} {before after : Text}
      (h : Within ranges c) : Matches (oneOf ranges) before [c] after
  | once {p : Pattern} {before part after : Text} (h : Matches p before part after) :
      Matches (repeated p) before part after
  | again {p : Pattern} {before s t after : Text} (h : Matches p before s (t ++ after))
      (hrest : Matches (repeated p) (before ++ s) t after) :
      Matches (repeated p) before (s ++ t) after
  | both {p q : Pattern} {before s t after : Text} (h : Matches p before s (t ++ after))
      (hrest : Matches q (before ++ s) t after) : Matches (both p q) before (s ++ t) after

/-- A pattern matches a text from its start on; what is left of the text may be anything. -/
def MatchesStart (p : Pattern) (t : Text) : Prop :=
  ∃ part after, t = part ++ after ∧ p.Matches [] part after

variable {ranges : List (CodePoint × CodePoint)} {before part after : Text}

theorem matches_start_iff : Matches start before part after ↔ before = [] ∧ part = [] := by
  constructor
  · rintro ⟨⟩
    exact ⟨rfl, rfl⟩
  · rintro ⟨rfl, rfl⟩
    exact .start

theorem matches_both_iff {p q : Pattern} : (both p q).Matches before part after ↔
    ∃ s t, part = s ++ t ∧ p.Matches before s (t ++ after) ∧ q.Matches (before ++ s) t after := by
  constructor
  · rintro (_ | _ | _ | _ | _ | _ | ⟨h, hrest⟩)
    exact ⟨_, _, rfl, h, hrest⟩
  · rintro ⟨s, t, rfl, h, hrest⟩
    exact .both h hrest

theorem matches_stop_iff :
    Matches stop before part after ↔ part = [] ∧ (after = [] ∨ after = [newline]) := by
  constructor
  · rintro (_ | _)
    · exact ⟨rfl, .inl rfl⟩
    · exact ⟨rfl, .inr rfl⟩
  · rintro ⟨rfl, rfl | rfl⟩
    · exact .stop
    · exact .stopBeforeNewline

/-- **A pattern between the start and the end** of a text leaves out nothing but a line feed. -/
theorem matchesStart_anchored_iff {p : Pattern} {t : Text} :
    (both start (both p stop)).MatchesStart t ↔
      ∃ part after, t = part ++ after ∧ p.Matches [] part after ∧ (after = [] ∨ after = [newline]) := by
  constructor
  · rintro ⟨_, after, rfl, h⟩
    obtain ⟨_, _, rfl, hstart, hrest⟩ := matches_both_iff.mp h
    obtain ⟨-, rfl⟩ := matches_start_iff.mp hstart
    obtain ⟨part, _, rfl, hp, hstop⟩ := matches_both_iff.mp hrest
    obtain ⟨rfl, hafter⟩ := matches_stop_iff.mp hstop
    exact ⟨part, after, by rw [List.nil_append, List.append_nil], hp, hafter⟩
  · rintro ⟨part, after, rfl, hp, hafter⟩
    refine ⟨part, after, rfl, matches_both_iff.mpr ⟨[], part, rfl, .start, ?_⟩⟩
    exact matches_both_iff.mpr
      ⟨part, [], (List.append_nil part).symm, hp, matches_stop_iff.mpr ⟨rfl, hafter⟩⟩

theorem Matches.repeated_oneOf {p : Pattern} (h : p.Matches before part after)
    (hp : p = .repeated (.oneOf ranges)) : part ≠ [] ∧ ∀ c ∈ part, Within ranges c := by
  induction h with
  | once h =>
    cases hp
    cases h with
    | oneOf hc => exact ⟨List.cons_ne_nil _ _, List.forall_mem_singleton.mpr hc⟩
  | again h _ _ ih =>
    obtain ⟨-, hrest⟩ := ih hp
    cases hp
    cases h with
    | oneOf hc => exact ⟨List.cons_ne_nil _ _, List.forall_mem_cons.mpr ⟨hc, hrest⟩⟩
  | _ => cases hp

/-- **A repeated class of code points** matches a word over it, wherever this stands. -/
theorem matches_repeated_oneOf_iff : (repeated (oneOf ranges)).Matches before part after ↔
    part ≠ [] ∧ ∀ c ∈ part, Within ranges c := by
  refine ⟨fun h => h.repeated_oneOf rfl, ?_⟩
  rintro ⟨hne, hpart⟩
  induction part generalizing before with
  | nil => exact absurd rfl hne
  | cons c part ih =>
    obtain ⟨hc, hrest⟩ := List.forall_mem_cons.mp hpart
    cases part with
    | nil => exact .once (.oneOf hc)
    | cons d part => exact .again (s := [c]) (.oneOf hc) (ih (List.cons_ne_nil _ _) hrest)

end Pattern

/-- The ranges of code points that key names are made of. -/
def keyRanges : List (CodePoint × CodePoint) :=
  [(charPoint 'a', charPoint 'z'), (charPoint 'A', charPoint 'Z'), (charPoint '0', charPoint '9'),
    (charPoint '-', charPoint '-')]

/-- **The pattern of key names.** -/
def keyPattern : Pattern := .both .start (.both (.repeated (.oneOf keyRanges)) .stop)

/-- Messages show the pattern as it is written down. -/
theorem written_keyPattern : keyPattern.written = ConfigFault.keyPattern := by decide +kernel

/-! ## Words -/

/-- The code points of key names. -/
def keyAlphabet : Text := "abcdefghijklmnopqrstuvwxyzABCDEFGHIJKLMNOPQRSTUVWXYZ0123456789-"

/-- A word over the alphabet of keys. -/
def IsKeyWord (t : Text) : Prop := t ≠ [] ∧ ∀ c ∈ t, c ∈ keyAlphabet

variable {c : CodePoint} {name : Text}

theorem mem_keyAlphabet_iff : c ∈ keyAlphabet ↔ c.isKeyPoint = true := by
  have hnumbers : keyAlphabet.map Fin.val =
      List.range' 97 26 ++ List.range' 65 26 ++ List.range' 48 10 ++ [45] := by decide +kernel
  have hval : c ∈ keyAlphabet ↔ c.val ∈ keyAlphabet.map Fin.val :=
    ⟨List.mem_map_of_mem, fun h => by
      obtain ⟨d, hd, hval⟩ := List.mem_map.mp h
      exact Fin.ext hval ▸ hd⟩
  rw [hval, hnumbers]
  simp only [List.mem_append, List.mem_range'_1, List.mem_singleton, CodePoint.isKeyPoint,
    Bool.or_eq_true, Bool.and_eq_true, decide_eq_true_eq, beq_iff_eq]
  omega

theorem within_keyRanges_iff : Pattern.Within keyRanges c ↔ c ∈ keyAlphabet := by
  have hdash : (charPoint '-').val = 45 := rfl
  rw [mem_keyAlphabet_iff]
  simp only [Pattern.Within, keyRanges, List.mem_cons, List.not_mem_nil, or_false, exists_eq_or_imp,
    exists_eq_left, CodePoint.isKeyPoint, Bool.or_eq_true, Bool.and_eq_true, decide_eq_true_eq,
    beq_iff_eq, Fin.le_def]
  rw [hdash]
  show (97 ≤ c.val ∧ c.val ≤ 122 ∨ 65 ≤ c.val ∧ c.val ≤ 90 ∨ 48 ≤ c.val ∧ c.val ≤ 57 ∨ _) ↔ _
  omega

theorem isKeyWord_iff : IsKeyWord name ↔ (!name.isEmpty && name.all CodePoint.isKeyPoint) = true := by
  simp only [IsKeyWord, mem_keyAlphabet_iff, Bool.and_eq_true, Bool.not_eq_true',
    List.isEmpty_eq_false_iff, List.all_eq_true]

instance (t : Text) : Decidable (IsKeyWord t) := decidable_of_iff _ isKeyWord_iff.symm

theorem IsKeyWord.not_mem (h : IsKeyWord name) (hc : c.isKeyPoint = false) : c ∉ name := by
  intro hmem
  rw [mem_keyAlphabet_iff.mp (h.2 c hmem)] at hc
  cases hc

theorem IsKeyWord.getLast?_ne (h : IsKeyWord name) : name.getLast? ≠ some Pattern.newline :=
  fun hlast => h.not_mem rfl (List.mem_of_getLast? hlast)

/-- A word over the alphabet of keys, after which one line feed may stand. -/
def IsKeyLine (t : Text) : Prop :=
  IsKeyWord t ∨ ∃ word, IsKeyWord word ∧ t = word ++ [Pattern.newline]

/-- **What keys can be called.** -/
theorem isKeyName_iff : isKeyName name = true ↔ IsKeyLine name := by
  rw [isKeyName]
  by_cases hlast : name.getLast? = some (charPoint '\n')
  · obtain ⟨word, rfl⟩ := List.getLast?_eq_some_iff.mp hlast
    rw [if_pos hlast, List.dropLast_concat, ← isKeyWord_iff, IsKeyLine,
      or_iff_right (mt IsKeyWord.getLast?_ne (not_not.mpr hlast))]
    exact ⟨fun h => ⟨word, h, rfl⟩, fun ⟨_, h, hword⟩ => List.append_cancel_right hword ▸ h⟩
  · rw [if_neg hlast, ← isKeyWord_iff, IsKeyLine, iff_comm, or_iff_left_iff_imp]
    rintro ⟨word, -, rfl⟩
    exact absurd List.getLast?_concat hlast

instance (t : Text) : Decidable (IsKeyLine t) := decidable_of_iff _ isKeyName_iff

/-- **The pattern of key names** matches exactly these names. -/
theorem isKeyName_iff_matches : isKeyName name = true ↔ keyPattern.MatchesStart name := by
  have hword : ∀ {part after : Text},
      (Pattern.repeated (.oneOf keyRanges)).Matches [] part after ↔ IsKeyWord part := by
    intro part after
    simp only [Pattern.matches_repeated_oneOf_iff, within_keyRanges_iff, IsKeyWord]
  rw [isKeyName_iff, keyPattern, Pattern.matchesStart_anchored_iff]
  simp only [hword]
  constructor
  · rintro (h | ⟨word, h, rfl⟩)
    · exact ⟨name, [], (List.append_nil name).symm, h, .inl rfl⟩
    · exact ⟨word, [Pattern.newline], rfl, h, .inr rfl⟩
  · rintro ⟨word, after, rfl, h, rfl | rfl⟩
    · exact .inl ((List.append_nil word).symm ▸ h)
    · exact .inr ⟨word, h, rfl⟩

/-! ## Full names -/

/-- The code points at which a text goes on in another line. -/
def lineBreaks : Text :=
  [0x0A, 0x0B, 0x0C, 0x0D, 0x1C, 0x1D, 0x1E, 0x85, 0x2028, 0x2029].map codePoint

def SpansLines (t : Text) : Prop := ∃ c ∈ t, c ∈ lineBreaks

/-- The slash between the name of a schema and that of a key. -/
def nameSeparator : CodePoint := charPoint '/'

theorem IsKeyWord.not_spansLines (h : IsKeyWord name) : ¬ SpansLines name := by
  have hbreaks : (lineBreaks.all fun c => !c.isKeyPoint) = true := rfl
  rintro ⟨c, hc, hbreak⟩
  have hpoint := List.all_eq_true.mp hbreaks c hbreak
  exact h.not_mem (by simpa using hpoint) hc

/-- Only a line feed at its end makes a name span lines. -/
theorem IsKeyLine.spansLines_iff (h : IsKeyLine name) : SpansLines name ↔ ¬ IsKeyWord name := by
  refine ⟨fun hspans hword => hword.not_spansLines hspans, fun hword => ?_⟩
  obtain ⟨word, -, rfl⟩ := h.resolve_left hword
  exact ⟨Pattern.newline, List.mem_append_right _ (List.mem_singleton_self _), by decide +kernel⟩

theorem IsKeyLine.separator_not_mem (h : IsKeyLine name) : nameSeparator ∉ name := by
  obtain h | ⟨word, h, rfl⟩ := h
  · exact h.not_mem rfl
  · rw [List.mem_append, not_or]
    exact ⟨h.not_mem rfl, by decide⟩

theorem name_labelIn (k : Key) (schema : Text) :
    (k.labelIn schema).name = schema ++ nameSeparator :: k.name := by
  have hslash : Text.ofString "/" = [nameSeparator] := rfl
  rw [Key.labelIn, hslash, List.append_assoc, List.singleton_append]

/-- **A full name** splits back into the two names that it is made of. -/
theorem splitOn_labelIn {k : Key} (hname : IsKeyLine name) (hk : IsKeyLine k.name) :
    (k.labelIn name).name.splitOn nameSeparator = [name, k.name] := by
  have hnames : ∀ t ∈ [name, k.name], nameSeparator ∉ t :=
    List.forall_mem_cons.mpr
      ⟨hname.separator_not_mem, List.forall_mem_singleton.mpr hk.separator_not_mem⟩
  have hlabel : name ++ nameSeparator :: k.name = [nameSeparator].intercalate [name, k.name] := by
    simp [List.intercalate]
  rw [name_labelIn, hlabel, List.splitOn_intercalate _ hnames (List.cons_ne_nil _ _)]

/-- A full name spans lines exactly if one of its two names ends with a line feed. -/
theorem spansLines_labelIn_iff {k : Key} (hname : IsKeyLine name) (hk : IsKeyLine k.name) :
    SpansLines (k.labelIn name).name ↔ ¬ (IsKeyWord name ∧ IsKeyWord k.name) := by
  have hparts : SpansLines (k.labelIn name).name ↔ SpansLines name ∨ SpansLines k.name := by
    have hseparator : nameSeparator ∉ lineBreaks := by decide +kernel
    simp only [SpansLines, name_labelIn, List.mem_append, List.mem_cons, or_and_right, exists_or,
      exists_eq_left, hseparator, false_or]
  rw [hparts, hname.spansLines_iff, hk.spansLines_iff, not_and_or]

/-! ## Keys and schemas -/

theorem IsKeyLine.iff_isKeyWord (h : name.getLast? ≠ some Pattern.newline) :
    IsKeyLine name ↔ IsKeyWord name := by
  refine ⟨fun hline => hline.resolve_right ?_, .inl⟩
  rintro ⟨word, -, rfl⟩
  exact h List.getLast?_concat

theorem Key.make_of_isKeyLine {k : Key} (h : IsKeyLine k.name) : k.make = .ok k :=
  if_pos (isKeyName_iff.mpr h)

theorem Key.make_of_not_isKeyLine {k : Key} (h : ¬ IsKeyLine k.name) :
    k.make = .error (.keyName k.name) := if_neg (mt isKeyName_iff.mp h)

theorem Key.isKeyLine_of_make {k k' : Key} (h : k.make = .ok k') : IsKeyLine k.name := by
  by_contra hname
  rw [make_of_not_isKeyLine hname] at h
  cases h

theorem mapM_make {keys : List Key} (h : ∀ k ∈ keys, k.make = .ok k) :
    keys.mapM Key.make = .ok keys := by
  induction keys with
  | nil => rfl
  | cons k keys ih =>
    obtain ⟨hk, hkeys⟩ := List.forall_mem_cons.mp h
    rw [List.mapM_cons, hk, ok_bind, ih hkeys]
    rfl

/-- A schema of keys that are made is made if it may be called so. -/
theorem Schema.make_of_isKeyLine {help : Text} {keys : List Key} (h : ∀ k ∈ keys, k.make = .ok k)
    (hname : IsKeyLine name) : Schema.make name help keys = .ok { name, help, keys } := by
  rw [Schema.make, mapM_make h, ok_bind, if_pos (isKeyName_iff.mpr hname)]
  rfl

theorem Schema.make_of_not_isKeyLine {help : Text} {keys : List Key}
    (h : ∀ k ∈ keys, k.make = .ok k) (hname : ¬ IsKeyLine name) :
    Schema.make name help keys = .error (.keyName name) := by
  rw [Schema.make, mapM_make h, ok_bind, if_neg (mt isKeyName_iff.mp hname)]
  rfl

/-- **What keys and schemas are called.** The pattern of key names matches the words over the alphabet of
keys, and such words with a line feed behind them. A key with such a name is made, and any other one is
refused for its name; so is a schema of keys that are made. Of the names that do not end with a line feed
these are the words. The full name of a key splits back into its two parts, and spans lines exactly if
one of them is no word. -/
theorem names_exact (name help : Text) {keys : List Key} (hkeys : ∀ k ∈ keys, k.make = .ok k) :
    (∀ t : Text, keyPattern.MatchesStart t ↔ IsKeyLine t) ∧
    (∀ k : Key, (IsKeyLine k.name → k.make = .ok k) ∧
      (¬ IsKeyLine k.name → k.make = .error (.keyName k.name))) ∧
    (IsKeyLine name → Schema.make name help keys = .ok { name, help, keys }) ∧
    (¬ IsKeyLine name → Schema.make name help keys = .error (.keyName name)) ∧
    (∀ t : Text, t.getLast? ≠ some Pattern.newline → (IsKeyLine t ↔ IsKeyWord t)) ∧
    (IsKeyLine name → ∀ k ∈ keys,
      (k.labelIn name).name.splitOn nameSeparator = [name, k.name] ∧
        (SpansLines (k.labelIn name).name ↔ ¬ (IsKeyWord name ∧ IsKeyWord k.name))) := by
  refine ⟨fun t => isKeyName_iff_matches.symm.trans isKeyName_iff,
    fun k => ⟨Key.make_of_isKeyLine, Key.make_of_not_isKeyLine⟩,
    Schema.make_of_isKeyLine hkeys, Schema.make_of_not_isKeyLine hkeys,
    fun t => IsKeyLine.iff_isKeyWord, fun hname k hk => ?_⟩
  have hline := Key.isKeyLine_of_make (hkeys k hk)
  exact ⟨splitOn_labelIn hname hline, spansLines_labelIn_iff hname hline⟩

/-- A key that is called by a word. -/
def wordKey : Key := { name := "foo-1", help := "", types := [] }

/-- A schema and a key in it that are called by words, and names that are refused: a word with two line
feeds behind it, and two words with a slash between them. -/
theorem names_exact_words : wordKey.make = .ok wordKey ∧
    Schema.make "top" "" [wordKey] = .ok { name := "top", help := "", keys := [wordKey] } ∧
      (wordKey.labelIn "top").name.splitOn nameSeparator = [("top" : Text), "foo-1"] ∧
      ¬ SpansLines (wordKey.labelIn "top").name ∧
      Key.make { wordKey with name := "foo\n\n" } = .error (.keyName "foo\n\n") ∧
      Schema.make "a/b" "" [wordKey] = .error (.keyName "a/b") := by
  have hkey : wordKey.make = .ok wordKey := rfl
  have hkeys : ∀ k ∈ [wordKey], k.make = .ok k := List.forall_mem_singleton.mpr hkey
  obtain ⟨-, hmake, hmade, -, -, hlabels⟩ := names_exact "top" "" hkeys
  obtain ⟨-, -, -, hrefused, -, -⟩ := names_exact "a/b" "" hkeys
  obtain ⟨hsplit, hspans⟩ := hlabels (by decide) wordKey (List.mem_singleton_self _)
  exact ⟨hkey, hmade (by decide), hsplit, fun h => hspans.mp h ⟨by decide, by decide⟩,
    (hmake { wordKey with name := "foo\n\n" }).2 (by decide), hrefused (by decide)⟩

/-- A line feed behind a word is let through: the name is no word, and the full name spans lines. -/
theorem names_spanLines : ∃ k s, Key.make { wordKey with name := "foo\n" } = .ok k ∧
    Schema.make "top" "" [k] = .ok s ∧ ¬ IsKeyWord k.name ∧ SpansLines (k.labelIn s.name).name :=
  ⟨_, _, rfl, rfl, by decide, Pattern.newline, by decide, by decide +kernel⟩

end Btf
