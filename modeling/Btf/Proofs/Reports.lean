import Mathlib.Tactic.ByContra
import Btf.Proofs.Config
import Btf.Proofs.Faults
import Btf.Proofs.Utf8

/-!
# Failures with a report

Whether every failure to decode a blob has a report depends on the codec and the error handler that
are configured. Some that a configuration may name cannot be used to decode names at all, and meeting
such a name is a failure without a report.

* `TextOptions.Reliable`: the codec decodes bytes to text, and the handler can deal with its bad runs;
* `Text.decode_reliable`: names are then decoded or refused for their bytes;
* `Text.decode_unreliable`: otherwise there is a name at which the codec or the handler fails;
* **`decode_reports_iff`**: every failure has a report exactly if the options are reliable.
-/

namespace Btf

/-- The codec decodes bytes to text, and the handler can deal with any bad run it finds. -/
def TextOptions.Reliable (o : TextOptions) : Prop :=
  ∃ codec handler, Codec.find? o.encoding = some codec ∧ Handler.find? o.errors = some handler ∧
    codec.isText = true ∧ codec ≠ .undefined ∧
      (codec = .latin1 ∨ handler ≠ .characterReference ∧ handler ≠ .characterName)

/-! ## Codecs and handlers -/

/-- A codec that decodes bytes to text has a scheme for them. -/
theorem Codec.exists_plan {codec : Codec} (htext : codec.isText = true) (hdef : codec ≠ .undefined)
    (bs : List UInt8) : ∃ s skip pos, codec.plan bs = some (s, skip, pos) ∧
      (codec = .latin1 → s = .latin1) := by
  cases codec with
  | utf8 | ascii | cp1252 | utf16le | utf16be => exact ⟨_, _, _, rfl, fun h => by cases h⟩
  | latin1 => exact ⟨_, _, _, rfl, fun _ => rfl⟩
  | utf8Sig | utf16 =>
    unfold plan
    split <;> first | exact ⟨_, _, _, rfl, fun h => by cases h⟩ | simp_all
  | hex | rot13 | base64 => cases htext
  | undefined => exact absurd rfl hdef

namespace Text

/-- With a scheme that knows every byte no handler is needed. -/
theorem decodeFrom_latin1 (handler : Text) (pos : Nat) (done : Text) (bs : List UInt8) :
    ∃ t, decodeFrom .latin1 handler pos done bs = .ok t := by
  induction bs generalizing pos done with
  | nil => rw [decodeFrom]; exact ⟨_, rfl⟩
  | cons b bs ih =>
    rw [decodeFrom]
    exact ih _ _

/-- A handler that can deal with bad runs does not fail, though it may give the run back. -/
theorem decodeFrom_ne_codec {handler : Text} {h : Handler} (hfind : Handler.find? handler = some h)
    (hfit : h ≠ .characterReference ∧ h ≠ .characterName) (s : Scheme) (pos : Nat) (done : Text)
    (bs : List UInt8) (fault : CodecFault) :
    decodeFrom s handler pos done bs ≠ .error (.codec fault) := by
  fun_induction decodeFrom s handler pos done bs with
  | case1 =>
    intro hfault
    cases hfault
  | case2 _ _ _ _ _ _ _ ih => exact ih
  | case3 _ _ _ _ _ _ _ hnone =>
    rw [hfind] at hnone
    cases hnone
  | case4 _ _ _ _ _ _ _ _ _ _ _ _ ih => exact ih
  | case5 =>
    intro hfault
    cases hfault
  | case6 _ _ _ _ _ _ _ _ hfind' hunfit =>
    -- no other handler makes nothing of a bad run
    cases hfind.symm.trans hfind'
    cases h with
    | characterReference => exact absurd rfl hfit.1
    | characterName => exact absurd rfl hfit.2
    | surrogateEscape | surrogatePass =>
      simp only [Handler.repair] at hunfit
      split at hunfit <;> cases hunfit
    | strict | replace | ignore | backslash => cases hunfit

/-- **Reliable options** decode every byte string or refuse it for its bytes. -/
theorem decode_reliable {o : TextOptions} (ho : o.Reliable)
    (hnames : (nameFault? o.encoding <|> nameFault? o.errors) = none) (bs : List UInt8)
    (fault : CodecFault) : decode o.encoding o.errors bs ≠ .error (.codec fault) := by
  obtain ⟨codec, handler, hcodec, hhandler, htext, hdef, hfit⟩ := ho
  obtain ⟨s, skip, pos, hplan, hlatin⟩ := Codec.exists_plan htext hdef bs
  have hfrom : ∀ fault, decodeFrom s o.errors pos [] (bs.drop skip) ≠ .error (.codec fault) := by
    intro fault
    rcases hfit with rfl | hfit
    · obtain ⟨t, ht⟩ := decodeFrom_latin1 o.errors pos [] (bs.drop skip)
      rw [hlatin rfl, ht]
      intro h
      cases h
    · exact decodeFrom_ne_codec hhandler hfit s pos [] (bs.drop skip) fault
  rw [decode_of_find hnames hcodec htext]
  by_cases hempty : bs.isEmpty
  · rw [if_pos hempty]
    intro h
    cases h
  · rw [if_neg hempty, decodeWith, hplan]
    dsimp only
    split
    · next fault' h => exact absurd h (hfrom fault')
    · exact hfrom fault

/-- The byte `0x81` alone stands for a character in no scheme but one. -/
theorem decodeFrom_unfit {handler : Text} {h : Handler} (hfind : Handler.find? handler = some h)
    (hunfit : h = .characterReference ∨ h = .characterName) {s : Scheme} (hs : s ≠ .latin1)
    (pos : Nat) : decodeFrom s handler pos [] [0x81] = .error (.codec .encodingOnly) := by
  have hbad : ∃ why, s.step 0x81 [] = .bad why 0 := by
    cases s with
    | utf8 => exact ⟨.invalidStart, by decide⟩
    | ascii => exact ⟨.notAscii, by decide⟩
    | latin1 => exact absurd rfl hs
    | cp1252 => exact ⟨.undefinedByte, by decide +kernel⟩
    | utf16 little => exact ⟨.truncated, rfl⟩
  obtain ⟨why, hstep⟩ := hbad
  rw [decodeFrom, hstep]
  dsimp only
  rw [hfind]
  rcases hunfit with rfl | rfl <;> rfl

theorem decodeWith_unfit {codec : Codec} {s : Scheme} {errors : Text} {bs : List UInt8}
    {skip pos : Nat} {fault : CodecFault} (hplan : codec.plan bs = some (s, skip, pos))
    (h : decodeFrom s errors pos [] (bs.drop skip) = .error (.codec fault)) (encoding : Text) :
    ∃ fault, decodeWith codec encoding errors bs = .error (.codec fault) := by
  rw [decodeWith, hplan]
  dsimp only
  rw [h]
  exact ⟨_, rfl⟩

/-- The one scheme that knows every byte is that of one codec. -/
theorem exists_plan_unfit {codec : Codec} (hcodec : codec ≠ .latin1) (htext : codec.isText = true)
    (hdef : codec ≠ .undefined) : ∃ s pos, codec.plan [0x81] = some (s, 0, pos) ∧ s ≠ .latin1 := by
  cases codec with
  | utf8 | utf8Sig | ascii | cp1252 | utf16 | utf16le | utf16be => exact ⟨_, _, rfl, by decide⟩
  | latin1 => exact absurd rfl hcodec
  | hex | rot13 | base64 => cases htext
  | undefined => exact absurd rfl hdef

/-- **Options that are not reliable** fail at the name that is the byte `0x81`. -/
theorem decode_unreliable {o : TextOptions} {codec : Codec} {handler : Handler}
    (hcodec : Codec.find? o.encoding = some codec) (hhandler : Handler.find? o.errors = some handler)
    (hnames : (nameFault? o.encoding <|> nameFault? o.errors) = none) (ho : ¬ o.Reliable) :
    ∃ fault, decode o.encoding o.errors [0x81] = .error (.codec fault) := by
  rw [decode, hnames]
  dsimp only
  rw [if_neg (by decide), hcodec]
  dsimp only
  by_cases htext : codec.isText = true
  · rw [if_pos htext]
    by_cases hdef : codec = .undefined
    · rw [hdef]
      exact ⟨_, rfl⟩
    · have hcodec' : codec ≠ .latin1 := fun h =>
        ho ⟨codec, handler, hcodec, hhandler, htext, hdef, .inl h⟩
      have hunfit : handler = .characterReference ∨ handler = .characterName := by
        by_contra hfit
        rw [not_or] at hfit
        exact ho ⟨codec, handler, hcodec, hhandler, htext, hdef, .inr hfit⟩
      obtain ⟨s, pos, hplan, hs⟩ := exists_plan_unfit hcodec' htext hdef
      exact decodeWith_unfit hplan (decodeFrom_unfit hhandler hunfit hs pos) _
  · rw [if_neg htext]
    exact ⟨_, rfl⟩

end Text

/-! ## Blobs -/

theorem SourceFault.exists_report {f : SourceFault} {r : Report SourceCode} (h : f.report? = some r) :
    ∃ r, (Fault.source f).report? = some r := ⟨_, congrArg (Option.map _) h⟩

/-- With reliable options every failure to decode a blob has a report. -/
theorem Table.exists_report {options : TextOptions} {s : Source} {c : Cursor} {fault : Fault}
    (hc : c.IsOpen) (hreliable : options.Reliable)
    (hnames : (Text.nameFault? options.encoding <|> Text.nameFault? options.errors) = none)
    (h : (Table.decode options s c).1.outcome = .error fault) : ∃ r, fault.report? = some r := by
  have houtside : ∀ target size, ∃ r, (Fault.source (.outside target size)).report? = some r :=
    fun _ _ => SourceFault.exists_report rfl
  refine Table.of_outcome_error (Φ := fun fault => ∃ r, fault.report? = some r) hc
    (fun _ => ⟨_, rfl⟩) (fun _ _ _ => ⟨_, rfl⟩) (fun _ _ _ => ⟨_, rfl⟩)
    (fun _ _ => SourceFault.exists_report rfl) houtside (fun header offset => ?_) h
  refine Read.upholds_stringAt houtside (fun _ _ => SourceFault.exists_report rfl) fun bs => ?_
  have hbs := Text.decode_reliable hreliable hnames bs
  split
  · trivial
  · exact ⟨_, rfl⟩
  · next fault hfault => exact absurd hfault (hbs fault)

theorem TextOptions.reliable_default : Reliable {} :=
  ⟨.utf8, .replace, by decide, by decide, rfl, by decide, .inr (by decide)⟩

/-- A blob with one entry, another name for `void`, whose own name is the byte `0x81`. -/
def strayNameBlob : Bytes := #[
  0x9F, 0xEB, 1, 0, 24, 0, 0, 0, 0, 0, 0, 0, 12, 0, 0, 0, 12, 0, 0, 0, 3, 0, 0, 0,
  1, 0, 0, 0, 0, 0, 0, 8, 0, 0, 0, 0,
  0, 0x81, 0]

theorem Names.entriesUpTo_of_error {names : Names} {stop : Int} {s : Source} {done : List TypeInfo}
    {c : Cursor} {fault : Fault} (hlt : c.offset < stop)
    (h : names.entry.outcome s c = .error fault) :
    (names.entriesUpTo stop s done c).1 = .error fault := by
  unfold entriesUpTo
  rw [if_pos hlt]
  split
  · next hrun =>
    rw [Read.outcome, hrun] at h
    cases h
  · next hrun =>
    rw [Read.outcome, hrun] at h
    cases h
    rfl

theorem Names.typeSection_of_error {names : Names} {s : Source} {c : Cursor} {fault : Fault}
    {start : Nat} (hstart : names.header.typeStart = start) (hin : start ≤ s.bytes.size)
    (hlt : start < names.header.typeEnd)
    (h : names.entry.outcome s { c with offset := start } = .error fault) :
    names.typeSection.outcome s c = .error fault := by
  rw [outcome_typeSection hstart hin]
  exact entriesUpTo_of_error hlt h

def strayNameHeader : Header := ⟨0xEB9F, 1, 0, 24, 0, 12, 12, 3⟩

/-- The entry of this blob fails if its name cannot be decoded at all. -/
theorem Names.outcome_strayEntry {options : TextOptions} {fault : CodecFault}
    (h : Text.decode options.encoding options.errors [0x81] = .error (.codec fault)) :
    (Names.entry ⟨strayNameHeader, options⟩).outcome { bytes := strayNameBlob }
      { offset := 24, order := .little } = .error (.codec fault) := by
  have hopen : Cursor.IsOpen { offset := 24, order := .little } := Cursor.isOpen_start
  have hstring : Source.HasString { bytes := strayNameBlob } 37 [0x81] :=
    ⟨by decide, by decide⟩
  have htext : Names.text ⟨strayNameHeader, options⟩ { bytes := strayNameBlob } 1 =
      .error (.codec fault) := by
    rw [text_of_hasString rfl hstring, Read.decoded, h]
  have hhead : Read.typeHeader.outcome { bytes := strayNameBlob } { offset := 24, order := .little } =
      .ok ⟨1, 0, 8, false, 0⟩ :=
    (Read.outcome_typeHeader_ok_iff hopen).mpr ⟨by decide, by decide⟩
  rw [outcome_entry, hhead]
  change (Entry.typedef _).outcome _ _ = _
  rw [Entry.typedef, Entry.outcome_require_bind, if_pos ⟨Nat.one_ne_zero, rfl, rfl⟩,
    Read.outcome_bind (consumes_get _ _), outcome_get (hopen.skip 12), htext]
  rfl

/-- If the name of this blob cannot be decoded at all, then neither can the blob. -/
theorem Table.outcome_strayName {options : TextOptions} {fault : CodecFault}
    (h : Text.decode options.encoding options.errors [0x81] = .error (.codec fault)) :
    (Table.decode options { bytes := strayNameBlob } {}).1.outcome = .error (.codec fault) := by
  have hlayout : Read.layout.run { bytes := strayNameBlob } {} =
      (.ok ⟨.little, strayNameHeader⟩, { offset := 24, order := .little }) :=
    (Read.layout_run_iff Cursor.isOpen_start).mpr ⟨by decide, by decide, rfl, rfl⟩
  have hsection : (Names.typeSection ⟨strayNameHeader, options⟩).outcome { bytes := strayNameBlob }
      { offset := 24, order := .little } = .error (.codec fault) :=
    Names.typeSection_of_error rfl (by decide) (by change (24 : Int) < 36; decide)
      (Names.outcome_strayEntry h)
  rw [outcome_decode, hlayout]
  dsimp only
  rw [hsection]
  rfl

/-- **Every failure to decode a blob has a report** exactly if the options that the configuration says
are reliable. -/
theorem decode_reports_iff {conf : Value} {options : DecoderOptions}
    (hconf : (DecoderOptions.configured conf).outcome = .ok options) :
    (∀ b : Bytes, (∃ t, (decode (.memory b) conf).outcome = .ok t) ∨
      ∃ fault r, (decode (.memory b) conf).outcome = .error (.blob fault) ∧
        fault.report? = some r) ↔ options.text.Reliable := by
  have hnames := DecoderOptions.nameFault_of_configured hconf
  have hdecode : ∀ b : Bytes, (decode (.memory b) conf).outcome =
      (Table.decode options.text { bytes := b } {}).1.outcome.mapError .blob := by
    intro b
    rw [outcome_decode_memory, hconf]
    rfl
  constructor
  · intro h
    by_contra hreliable
    obtain ⟨⟨codec, hcodec⟩, handler, hhandler⟩ := DecoderOptions.lookup_of_configured hconf
    obtain ⟨fault, hfault⟩ := Text.decode_unreliable (Codec.lookup_ok_iff.mp hcodec).2
      (Handler.lookup_ok_iff.mp hhandler).2 hnames hreliable
    have hstray := hdecode strayNameBlob
    rw [Table.outcome_strayName hfault] at hstray
    rcases h strayNameBlob with ⟨t, ht⟩ | ⟨fault', r, hfault', hr⟩
    · rw [hstray] at ht
      cases ht
    · rw [hstray] at hfault'
      cases hfault'
      cases hr
  · intro hreliable b
    rw [hdecode b]
    cases h : (Table.decode options.text { bytes := b } {}).1.outcome with
    | ok t => exact .inl ⟨t, rfl⟩
    | error fault =>
      obtain ⟨r, hr⟩ := Table.exists_report Cursor.isOpen_start hreliable hnames h
      exact .inr ⟨fault, r, rfl, hr⟩

theorem decode_reports_default : (DecoderOptions.configured .null).outcome = .ok {} ∧
    ∀ b : Bytes, (∃ t, (decode (.memory b) .null).outcome = .ok t) ∨
      ∃ fault r, (decode (.memory b) .null).outcome = .error (.blob fault) ∧
        fault.report? = some r := by
  have h : (DecoderOptions.configured .null).outcome = .ok {} :=
    toOption_eq_some_iff.mp (by decide +kernel)
  exact ⟨h, (decode_reports_iff h).mpr TextOptions.reliable_default⟩

/-- A configuration that says a codec which decodes bytes to bytes. -/
def bytesConfiguration : Value := .map [(.str "string-encoding", .str "hex")]

/-- A configuration that is accepted, and a blob that then fails without a report. -/
theorem decode_unreported : (DecoderOptions.configured bytesConfiguration).outcome =
      .ok { text := { encoding := "hex" } } ∧
    (decode (.memory strayNameBlob) bytesConfiguration).outcome =
      .error (.blob (.codec (.notText "hex"))) ∧ (Fault.codec (.notText "hex")).report? = none := by
  have hconf : (DecoderOptions.configured bytesConfiguration).outcome =
      .ok { text := { encoding := "hex" } } := toOption_eq_some_iff.mp (by decide +kernel)
  have hname : Text.decode "hex" "replace" [0x81] = .error (.codec (.notText "hex")) := by
    decide +kernel
  refine ⟨hconf, ?_, rfl⟩
  rw [outcome_decode_memory, hconf]
  change (Table.decode _ _ _).1.outcome.mapError _ = _
  rw [Table.outcome_strayName hname]
  rfl

end Btf
