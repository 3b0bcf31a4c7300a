import Btf.Proofs.Reports
import Btf.Proofs.Section.Split
import Btf.Proofs.Settings
import Btf.Proofs.Traversal

/-!
# Error handlers of names

A handler is asked only about bytes that stand for no character. As long as no name has any, a blob is
decoded with every handler as it is decoded strictly, up to the first name that has some; and a handler
that always goes on never lets a name fail.

* `Codec.ofText`: the codecs of names;
* `Text.decodeFrom_of_strict`, **`Text.decode_of_strict`**: what is decoded strictly is decoded to the
  same text by every handler;
* `Read.Follows`: an action that goes on as another one does, unless that one stops at such a name;
* `Names.follows_get`, `Names.follows_entry`: names and entries;
* `Names.follows_entriesUpTo`: the loop over the section, by induction on its steps;
* `Table.follows_strict`, `Table.replace_reports`: tables;
* `TextOptions.SaidBy`, `TextOptions.exists_saidBy_iff`: the options that configurations say;
* **`decode_handlers`**: configurations that differ in the handler.
-/

namespace Btf

/-- The codecs that decode every byte to text or say that they cannot. -/
def Codec.ofText : List Codec := [.utf8, .utf8Sig, .ascii, .latin1, .cp1252, .utf16, .utf16le, .utf16be]

theorem Codec.isText_of_mem {codec : Codec} (h : codec ∈ Codec.ofText) :
    codec.isText = true ∧ codec ≠ .undefined := by
  cases codec <;> simp [ofText, isText] at h ⊢

/-- A fault is reported, and with another code than those of names. -/
def Fault.HasOtherCode (fault : Fault) : Prop := ∃ code, fault.HasCode code ∧ code ≠ .unknown

theorem Violation.code_ne_unknown (what : Violation) : what.code ≠ .unknown := by
  cases what with
  | refFields kind => cases kind <;> decide
  | _ => exact ErrorCode.noConfusion

/-! ## Names -/

namespace Text

variable {encoding errors : Text} {codec : Codec} {bs : List UInt8} {t : Text}

/-- **No handler is asked** where a strict reading goes through. -/
theorem decodeFrom_of_strict {s : Scheme} {pos : Nat} {done : Text} (errors : Text)
    (h : decodeFrom s "strict" pos done bs = .ok t) : decodeFrom s errors pos done bs = .ok t := by
  have hfind : Handler.find? "strict" = some .strict := by decide
  fun_induction decodeFrom s "strict" pos done bs with
  | case1 pos done =>
    rw [decodeFrom]
    exact h
  | case2 pos done b rest c more hstep ih =>
    rw [decodeFrom, hstep]
    exact ih h
  | case3 _ _ _ _ _ _ _ hnone =>
    rw [hfind] at hnone
    cases hnone
  | case4 _ _ _ _ _ _ _ _ hfind' _ _ hrepair =>
    -- the strict handler puts no text in the place of bytes
    cases hfind.symm.trans hfind'
    cases hrepair
  | case5 => cases h
  | case6 => cases h

theorem decodeWith_of_strict (errors : Text) (h : decodeWith codec encoding "strict" bs = .ok t) :
    decodeWith codec encoding errors bs = .ok t := by
  unfold decodeWith at h
  cases hplan : codec.plan bs with
  | none =>
    rw [hplan] at h
    cases h
  | some plan =>
    obtain ⟨s, skip, pos⟩ := plan
    rw [hplan] at h
    dsimp only at h
    cases hfrom : decodeFrom s "strict" pos [] (bs.drop skip) with
    | ok u =>
      rw [hfrom] at h
      cases h
      exact decodeWith_of_ok hplan (decodeFrom_of_strict errors hfrom)
    | error fault =>
      rw [hfrom] at h
      cases fault <;> cases h

section

variable (hstrict : (nameFault? encoding <|> nameFault? "strict") = none)
  (hnames : (nameFault? encoding <|> nameFault? errors) = none)
  (hcodec : Codec.find? encoding = some codec) (htext : codec.isText = true)

include hstrict hnames hcodec htext in
/-- **What is decoded strictly** is decoded to the same text by every handler. -/
theorem decode_of_strict (h : decode encoding "strict" bs = .ok t) :
    decode encoding errors bs = .ok t := by
  rw [decode_of_find hstrict hcodec htext] at h
  rw [decode_of_find hnames hcodec htext]
  by_cases hempty : bs.isEmpty
  · rw [if_pos hempty] at h ⊢
    exact h
  · rw [if_neg hempty] at h ⊢
    exact decodeWith_of_strict errors h

include hstrict hcodec htext in
/-- A strict reading fails for the bytes only. -/
theorem exists_run_of_strict (hdef : codec ≠ .undefined) {fault : DecodeFault}
    (h : decode encoding "strict" bs = .error fault) : ∃ run, fault = .undecodable run := by
  have hfind : Handler.find? "strict" = some .strict := by decide
  have hreliable : TextOptions.Reliable ⟨encoding, "strict"⟩ :=
    ⟨codec, .strict, hcodec, hfind, htext, hdef, .inr (by decide)⟩
  cases fault with
  | undecodable run => exact ⟨run, rfl⟩
  | codec fault =>
    have hne := decode_reliable hreliable hstrict bs fault
    exact absurd h hne

end

/-- **A handler that always goes on** decodes every byte string. -/
theorem exists_decode_replace (hnames : (nameFault? encoding <|> nameFault? "replace") = none)
    (hcodec : Codec.find? encoding = some codec) (htext : codec.isText = true)
    (hdef : codec ≠ .undefined) (bs : List UInt8) : ∃ t, decode encoding "replace" bs = .ok t := by
  rw [decode_of_find hnames hcodec htext]
  by_cases hempty : bs.isEmpty
  · exact ⟨[], if_pos hempty⟩
  · obtain ⟨s, skip, pos, hplan, -⟩ := Codec.exists_plan htext hdef bs
    obtain ⟨t, ht⟩ := decodeFrom_replace s pos [] (bs.drop skip)
    rw [if_neg hempty]
    exact ⟨t, decodeWith_of_ok hplan ht⟩

end Text

/-! ## Actions that go on alike -/

namespace Read

variable {α : Type} {Stop : Fault → Prop}

/-- The second action does what the first one does, unless that one fails with a fault at which they may
part. -/
def Follows (Stop : Fault → Prop) (m m' : Read Fault α) : Prop :=
  ∀ s c, m'.run s c = m.run s c ∨ ∃ fault, m.outcome s c = .error fault ∧ Stop fault

theorem Follows.refl (m : Read Fault α) : Follows Stop m m := fun _ _ => .inl rfl

theorem Follows.bind {β : Type} {m m' : Read Fault α} {f f' : α → Read Fault β}
    (hm : Follows Stop m m') (hf : ∀ a, Follows Stop (f a) (f' a)) :
    Follows Stop (m >>= f) (m' >>= f') := by
  intro s c
  unfold outcome
  rw [run_bind, run_bind]
  rcases hm s c with hsame | ⟨fault, hfault, hstop⟩
  · rw [hsame]
    rcases m.run s c with ⟨e | a, c₁⟩
    · exact .inl rfl
    · exact hf a s c₁
  · have hrun : m.run s c = (.error fault, (m.run s c).2) := Prod.ext hfault rfl
    rw [hrun]
    exact .inr ⟨fault, rfl, hstop⟩

theorem congruence_follows (Stop : Fault → Prop) : Congruence fun _ _ m m' => Follows Stop m m' where
  pure a := .refl (pure a)
  bind := Follows.bind

end Read

namespace Names

open Read (Follows)

variable {names names' : Names} {Stop : Fault → Prop}

/-- An entry goes on alike if its names do. -/
theorem follows_entry (hget : ∀ offset, Follows Stop (names.get offset) (names'.get offset)) :
    Follows Stop names.entry names'.entry :=
  (Follows.refl Read.offset).bind fun _ => (Follows.refl Read.typeHeader).bind fun _ =>
    Entry.congruence_info (Read.congruence_follows Stop) names names' (fun _ _ _ => .refl _)
      (.refl Entry.u32) hget

/-- **The loop over the section** goes on alike if its entries do. -/
theorem follows_entriesUpTo (hentry : Follows Stop names.entry names'.entry) (stop : Int) (s : Source)
    (done : List TypeInfo) (c : Cursor) :
    names'.entriesUpTo stop s done c = names.entriesUpTo stop s done c ∨
      ∃ fault, (names.entriesUpTo stop s done c).1 = .error fault ∧ Stop fault := by
  fun_induction entriesUpTo names stop s done c with
  | case1 done c hlt info c' hrun hover =>
    rcases hentry s c with hsame | ⟨fault, hfault, -⟩
    · rw [hrun] at hsame
      exact .inl (entriesUpTo_refused hlt (run_entryWithin_overrun hsame hover))
    · rw [Read.outcome, hrun] at hfault
      cases hfault
  | case2 done c hlt info c' hrun hle _ ih =>
    rcases hentry s c with hsame | ⟨fault, hfault, -⟩
    · rw [hrun] at hsame
      rw [entriesUpTo_entry hsame (Int.not_lt.mp hle)]
      exact ih
    · rw [Read.outcome, hrun] at hfault
      cases hfault
  | case3 done c hlt fault c' hrun =>
    rcases hentry s c with hsame | ⟨fault', hfault, hstop⟩
    · rw [hrun] at hsame
      exact .inl (entriesUpTo_refused hlt (run_entryWithin_error hsame))
    · rw [Read.outcome, hrun] at hfault
      cases hfault
      exact .inr ⟨fault, rfl, hstop⟩
  | case4 done c hend => exact .inl (entriesUpTo_end (Int.not_lt.mp hend))

/-- **The section** is read alike with other options if its entries are. -/
theorem follows_typeSection {header : Header} {options options' : TextOptions}
    (hentry : Follows Stop (entry ⟨header, options⟩) (entry ⟨header, options'⟩)) :
    Follows Stop (typeSection ⟨header, options⟩) (typeSection ⟨header, options'⟩) :=
  (Follows.refl _).bind fun _ s c => follows_entriesUpTo hentry header.typeEnd s [] c

variable {encoding errors : Text} {codec : Codec}
  (hstrict : (Text.nameFault? encoding <|> Text.nameFault? "strict") = none)
  (hnames : (Text.nameFault? encoding <|> Text.nameFault? errors) = none)
  (hcodec : Codec.find? encoding = some codec) (hmem : codec ∈ Codec.ofText)

include hstrict hnames hcodec hmem in
/-- **A name** that can be decoded strictly is decoded by every handler to the same text. -/
theorem follows_get (header : Header) (offset : Nat) : Follows (Fault.HasCode .unknown)
    (get ⟨header, ⟨encoding, "strict"⟩⟩ offset) (get ⟨header, ⟨encoding, errors⟩⟩ offset) := by
  obtain ⟨htext, hdef⟩ := Codec.isText_of_mem hmem
  refine (Follows.refl _).bind fun bs s c => ?_
  dsimp only
  cases h : Text.decode encoding "strict" bs with
  | ok t =>
    rw [Text.decode_of_strict hstrict hnames hcodec htext h]
    exact .inl rfl
  | error fault =>
    obtain ⟨run, rfl⟩ := Text.exists_run_of_strict hstrict hcodec htext hdef h
    exact .inr ⟨_, rfl, _, rfl, rfl⟩

end Names

namespace Table

variable {encoding errors : Text} {codec : Codec} {s : Source} {c : Cursor}
  (hcodec : Codec.find? encoding = some codec) (hmem : codec ∈ Codec.ofText)

include hcodec hmem in
/-- **A table** is the one that is decoded strictly, unless that fails at a name. -/
theorem follows_strict (hstrict : (Text.nameFault? encoding <|> Text.nameFault? "strict") = none)
    (hnames : (Text.nameFault? encoding <|> Text.nameFault? errors) = none) :
    (decode ⟨encoding, errors⟩ s c).1.outcome = (decode ⟨encoding, "strict"⟩ s c).1.outcome ∨
      ∃ fault, (decode ⟨encoding, "strict"⟩ s c).1.outcome = .error fault ∧
        fault.HasCode .unknown := by
  rw [outcome_decode, outcome_decode]
  rcases Read.layout.run s c with ⟨fault | layout, c₁⟩
  · exact .inl rfl
  · dsimp only
    have hentry := Names.follows_entry
      (Names.follows_get hstrict hnames hcodec hmem layout.header)
    rcases Names.follows_typeSection hentry s c₁ with hsame | ⟨fault, hfault, hstop⟩
    · left
      rw [Read.outcome, hsame, ← Read.outcome]
    · right
      rw [hfault]
      exact ⟨fault, rfl, hstop⟩

include hcodec hmem in
/-- **With replacement** decoding fails with a report, and never for a name. -/
theorem replace_reports (hc : c.IsOpen) {fault : Fault}
    (hnames : (Text.nameFault? encoding <|> Text.nameFault? "replace") = none)
    (h : (decode ⟨encoding, "replace"⟩ s c).1.outcome = .error fault) : fault.HasOtherCode := by
  obtain ⟨htext, hdef⟩ := Codec.isText_of_mem hmem
  have hio : ∀ {fault : Fault}, fault.HasCode .ioError → fault.HasOtherCode :=
    fun h => ⟨.ioError, h, by decide⟩
  have houtside : ∀ target size, (Fault.source (.outside target size)).HasOtherCode :=
    fun _ _ => hio ⟨_, rfl, rfl⟩
  have hunterminated : ∀ target size, (Fault.source (.unterminated target size)).HasOtherCode :=
    fun _ _ => hio ⟨_, rfl, rfl⟩
  refine of_outcome_error hc (fun _ => ⟨.invalidMagicValue, ⟨_, rfl, rfl⟩, by decide⟩)
    (fun _ _ what => ⟨what.code, ⟨_, rfl, rfl⟩, what.code_ne_unknown⟩)
    (fun _ _ _ => hio ⟨_, rfl, rfl⟩) (fun _ _ => hio ⟨_, rfl, rfl⟩) houtside
    (fun header offset => ?_) h
  refine Read.upholds_stringAt houtside hunterminated fun bs => ?_
  obtain ⟨t, ht⟩ := Text.exists_decode_replace hnames hcodec htext hdef bs
  rw [ht]
  trivial

end Table

/-! ## Configurations -/

/-- A key whose validator looks texts up takes one that is found. -/
theorem Schema.validateKey_of_lookup {α : Type} {s : Schema} {key t : Text} {k : Key}
    {function : String} {lookup : Text → Except CodecFault α} {a : α} (hkey : s.lookup (.str key) = .ok k)
    (hk : k.validator? = some (.ofLookup function lookup))
    (htype : k.checker.checkType (.str t) (.anyOf .tuple k.types) = .ok ())
    (ht : lookup t = .ok a) : s.validateKey (.str key) (.str t) = .ok () := by
  rw [validateKey, hkey]
  refine Key.validate_ok_iff.mpr ⟨htype, ?_⟩
  rw [hk]
  rintro _ ⟨⟩
  exact Validator.ofLookup_ok_iff.mpr ⟨t, a, rfl, ht⟩

namespace TextOptions

/-- A configuration that says these options for names, whatever else it says. -/
def SaidBy (o : TextOptions) (conf : Value) : Prop :=
  ∃ options, (DecoderOptions.configured conf).outcome = .ok options ∧ options.text = o

/-- The configuration that says these options and nothing else. -/
def toValue (o : TextOptions) : Value :=
  .map [("string-encoding", .str o.encoding), ("string-errors", .str o.errors)]

variable {o : TextOptions}

theorem checked_toValue {codec : Codec} {handler : Handler}
    (hcodec : Codec.lookup o.encoding = .ok codec) (hhandler : Handler.lookup o.errors = .ok handler) :
    Config.checked o.toValue =
      .ok [("string-encoding", .str o.encoding), ("string-errors", .str o.errors)] := by
  have hencoding :
      ConfigKind.decoder.schema.validateKey (.str "string-encoding") (.str o.encoding) = .ok () :=
    Schema.validateKey_of_lookup rfl rfl rfl hcodec
  have herrors :
      ConfigKind.decoder.schema.validateKey (.str "string-errors") (.str o.errors) = .ok () :=
    Schema.validateKey_of_lookup rfl rfl rfl hhandler
  have hchecked : Config.checked o.toValue = ConfigKind.decoder.schema.validate o.toValue := rfl
  rw [hchecked]
  refine Schema.validate_ok_iff.mpr ⟨rfl, ?_⟩
  exact List.forall_mem_cons.mpr ⟨hencoding, List.forall_mem_singleton.mpr herrors⟩

theorem saidBy_toValue {codec : Codec} {handler : Handler}
    (hcodec : Codec.lookup o.encoding = .ok codec) (hhandler : Handler.lookup o.errors = .ok handler) :
    o.SaidBy o.toValue := by
  obtain ⟨c, hc⟩ := Config.exists_make_of_checked (checked_toValue hcodec hhandler)
  have hget : ∀ key ∈ ConfigKind.decoder.schema.keyNames, ∀ t,
      (Addition.start o.toValue Config.userLayer).given? key = some (.str t) →
        c.get key = .ok (.str t) := by
    intro key hkey t hgiven
    obtain ⟨w, hw, hanswer⟩ := Config.get_decoder_iff hc hkey
    rw [hgiven] at hw
    cases hw
    exact hanswer.mpr fun hname => absurd hname (by decide)
  have hencoding := hget "string-encoding" (by decide) o.encoding rfl
  have herrors := hget "string-errors" (by decide) o.errors rfl
  refine ⟨c.decoderOptions, ?_, ?_⟩
  · rw [DecoderOptions.configured, Logged.outcome_bind _ fun _ => Logged.appends_pure _, hc]
    rfl
  · rw [Config.decoderOptions, Config.textOf, Config.textOf, hencoding, herrors]

/-- **Options are said by a configuration** exactly if their codec and their handler can be looked
up. -/
theorem exists_saidBy_iff : (∃ conf, o.SaidBy conf) ↔
    (∃ codec, Codec.lookup o.encoding = .ok codec) ∧
      ∃ handler, Handler.lookup o.errors = .ok handler := by
  constructor
  · rintro ⟨conf, options, hoptions, rfl⟩
    exact DecoderOptions.lookup_of_configured hoptions
  · rintro ⟨⟨codec, hcodec⟩, handler, hhandler⟩
    exact ⟨o.toValue, saidBy_toValue hcodec hhandler⟩

theorem SaidBy.nameFault {conf : Value} (h : o.SaidBy conf) :
    (Text.nameFault? o.encoding <|> Text.nameFault? o.errors) = none := by
  obtain ⟨options, hoptions, rfl⟩ := h
  exact DecoderOptions.nameFault_of_configured hoptions

theorem SaidBy.outcome_decode {conf : Value} (h : o.SaidBy conf) (b : Bytes) :
    (decode (.memory b) conf).outcome =
      (Table.decode o { bytes := b } {}).1.outcome.mapError .blob := by
  obtain ⟨options, hoptions, rfl⟩ := h
  rw [outcome_decode_memory, hoptions]
  rfl

end TextOptions

/-- **Handlers repair names and do nothing else.** With a codec of text, a blob that is decoded strictly
is decoded to the same table with every handler that a configuration may name. One that is refused with
another code than those of names is refused for the same fault with every handler. With replacement a
blob is decoded or refused with a report of another code. -/
theorem decode_handlers {encoding : Text} {codec : Codec} (hcodec : Codec.lookup encoding = .ok codec)
    (hmem : codec ∈ Codec.ofText) (b : Bytes) :
    (∀ errors, (∃ conf, TextOptions.SaidBy ⟨encoding, errors⟩ conf) ↔
      ∃ handler, Handler.lookup errors = .ok handler) ∧
    (∀ errors strict other, TextOptions.SaidBy ⟨encoding, "strict"⟩ strict →
      TextOptions.SaidBy ⟨encoding, errors⟩ other →
        (∀ t, (decode (.memory b) strict).outcome = .ok t →
          (decode (.memory b) other).outcome = .ok t) ∧
        ∀ fault, (decode (.memory b) strict).outcome = .error fault →
          (∀ f, fault = .blob f → ¬ f.HasCode .unknown) →
            (decode (.memory b) other).outcome = .error fault) ∧
    ∀ conf e, TextOptions.SaidBy ⟨encoding, "replace"⟩ conf →
      (decode (.memory b) conf).outcome = .error e → ∃ f, e = .blob f ∧ f.HasOtherCode := by
  have hfind : Codec.find? encoding = some codec := (Codec.lookup_ok_iff.mp hcodec).2
  refine ⟨fun errors => ?_, fun errors strict other hstrict hother => ?_, fun conf e hconf h => ?_⟩
  · rw [TextOptions.exists_saidBy_iff]
    exact and_iff_right ⟨codec, hcodec⟩
  · rw [hstrict.outcome_decode, hother.outcome_decode]
    rcases Table.follows_strict hfind hmem hstrict.nameFault hother.nameFault (s := { bytes := b })
      (c := {}) with hsame | ⟨f, hf, hcode⟩
    · rw [hsame]
      exact ⟨fun _ => id, fun _ h _ => h⟩
    · rw [hf]
      refine ⟨fun t h => (by cases h), fun fault h hne => ?_⟩
      cases h
      exact absurd hcode (hne f rfl)
  · rw [hconf.outcome_decode] at h
    obtain ⟨f, hf, rfl⟩ := mapError_eq_error.mp h
    exact ⟨f, rfl, Table.replace_reports hfind hmem Cursor.isOpen_start hconf.nameFault hf⟩

/-- A blob that is decoded strictly, and the same blob without its last byte. -/
theorem decode_handlers_variadic :
    (decode (.memory variadicBlob) (TextOptions.toValue ⟨"ascii", "namereplace"⟩)).outcome =
      .ok variadicTable ∧
    (decode (.memory variadicBlob.pop) (TextOptions.toValue ⟨"ascii", "namereplace"⟩)).outcome =
      .error (.blob (.source (.unterminated 73 1))) ∧
    ∃ f, (decode (.memory variadicBlob.pop) (TextOptions.toValue ⟨"ascii", "replace"⟩)).outcome =
      .error (.blob f) ∧ f.HasOtherCode := by
  have hcodec : Codec.lookup "ascii" = .ok .ascii := by decide +kernel
  have hmem : Codec.ascii ∈ Codec.ofText := by decide
  have hsaid : ∀ {errors : Text} {handler : Handler}, Handler.lookup errors = .ok handler →
      TextOptions.SaidBy ⟨"ascii", errors⟩ (TextOptions.toValue ⟨"ascii", errors⟩) :=
    fun h => TextOptions.saidBy_toValue hcodec h
  have hstrict := hsaid (by decide +kernel : Handler.lookup "strict" = .ok .strict)
  have hname := hsaid (by decide +kernel : Handler.lookup "namereplace" = .ok .characterName)
  have hreplace := hsaid (by decide +kernel : Handler.lookup "replace" = .ok .replace)
  obtain ⟨-, hwhole, -⟩ := decode_handlers hcodec hmem variadicBlob
  obtain ⟨-, hcut, hreports⟩ := decode_handlers hcodec hmem variadicBlob.pop
  refine ⟨(hwhole _ _ _ hstrict hname).1 _ ?_, (hcut _ _ _ hstrict hname).2 _ ?_ ?_, ?_⟩
  · exact toOption_eq_some_iff.mp (by decide +kernel)
  · exact refusal?_eq_some_iff.mp (by decide +kernel)
  · rintro f hf ⟨r, hr, hcode⟩
    cases hf
    cases hr
    cases hcode
  · have hfails : (decode (.memory variadicBlob.pop)
        (TextOptions.toValue ⟨"ascii", "replace"⟩)).outcome =
          .error (.blob (.source (.unterminated 73 1))) :=
      refusal?_eq_some_iff.mp (by decide +kernel)
    obtain ⟨f, hf, hcode⟩ := hreports _ _ hreplace hfails
    exact ⟨f, hf ▸ hfails, hcode⟩

end Btf
