import GnssLink.Proofs.Report.WithinPayload
import Mathlib.Data.List.Infix
/-!
# GnssLink.Proofs.Report.VersionFields

**The version is decided by the software version and by the extensions that are labelled `FWVER=` or
`MOD=`, of each kind the last one** (`version_of_fields`).

A payload of the lengths that occur is made of fields (`Fields`), and each of them counts up to its
first NUL (`ended`). What the texts of the extensions give under a label is said by `Gives`, which
knows nothing of the order in which they are taken. The extensions are taken one after another
(`Found.take`): each part of what is found has a label under which it is set, and any other text
leaves it as it is (`SetBy`). By induction a part ends up as what the texts give under its label
(`SetBy.foldl_take`).
-/

namespace GnssLink.Report

namespace Version

/-! ### Fields -/

/-- The bytes of a field before its first NUL. -/
def ended (field : List UInt8) : List UInt8 := field.takeWhile (· ≠ 0)

/-- Bytes as text, without white space at its ends. -/
def wording (bytes : List UInt8) : List Char := Text.trim (Text.Utf8.decodeLossy bytes)

/-- The text in a field. -/
def text (field : List UInt8) : List Char := wording (ended field)

theorem fieldText?_eq (field : List UInt8) : fieldText? field = some (text field) := by
  have hend : (field.findIdx? (· = 0)).getD field.length = field.findIdx (· = 0) :=
    List.findIdx_eq_getD_findIdx?.symm
  have htake : field.take (field.findIdx (· = 0)) = ended field := by
    rw [ended, List.takeWhile_eq_take_findIdx_not]
    simp
  unfold fieldText?
  rw [hend, slice?_zero List.findIdx_le_length, htake]
  rfl

/-- The fields of a payload. -/
structure Fields where
  /-- The software version. -/
  software : List UInt8
  /-- The hardware version. -/
  hardware : List UInt8
  extensions : List (List UInt8)
  length_software : software.length = 30
  length_hardware : hardware.length = 10
  length_extensions : ∀ field ∈ extensions, field.length = 30

namespace Fields

/-- The fields one after another. -/
def payload (f : Fields) : List UInt8 := f.software ++ f.hardware ++ f.extensions.flatten

/-- The texts of the extensions. -/
def texts (f : Fields) : List (List Char) := f.extensions.map text

theorem length_flatten_extensions (f : Fields) :
    f.extensions.flatten.length = 30 * f.extensions.length := by
  have hlengths : f.extensions.map List.length = f.extensions.map fun _ => 30 :=
    List.map_congr_left f.length_extensions
  rw [List.length_flatten, hlengths, List.map_const', List.sum_replicate_nat, Nat.mul_comm]

theorem length_payload (f : Fields) : f.payload.length = 40 + 30 * f.extensions.length := by
  rw [payload, List.length_append, List.length_append, f.length_software, f.length_hardware,
    length_flatten_extensions]

theorem headSize_le_length (f : Fields) : headSize ≤ f.payload.length := by
  rw [length_payload]
  exact Nat.le_add_right _ _

/-- The fields that stand in a payload of such a length. -/
def ofPayload (p : List UInt8) (k : Nat) (h : p.length = 40 + 30 * k) : Fields where
  software := p.take 30
  hardware := (p.drop 30).take 10
  extensions := Config.chunksOf 30 (p.drop 40)
  length_software := by
    rw [List.length_take]
    omega
  length_hardware := by
    rw [List.length_take, List.length_drop]
    omega
  length_extensions := by
    have hrest : (p.drop 40).length = 30 * k := by
      rw [List.length_drop, h, Nat.add_sub_cancel_left]
    intro field hfield
    exact Config.length_of_mem_chunksOf_of_dvd (by decide) ⟨k, hrest⟩ hfield

theorem payload_ofPayload {p : List UInt8} {k : Nat} (h : p.length = 40 + 30 * k) :
    (ofPayload p k h).payload = p := by
  have hdrop : p.drop 40 = (p.drop 30).drop 10 := by rw [List.drop_drop]
  calc (ofPayload p k h).payload
    _ = p.take 30 ++ (p.drop 30).take 10 ++ p.drop 40 :=
      congrArg _ (Config.flatten_chunksOf (p.drop 40))
    _ = p := by rw [List.append_assoc, hdrop, List.take_append_drop, List.take_append_drop]

/-- The payloads of these lengths are those that are made of fields. -/
theorem length_eq_iff {p : List UInt8} {k : Nat} :
    p.length = 40 + 30 * k ↔ ∃ f : Fields, f.payload = p ∧ f.extensions.length = k := by
  constructor
  · intro h
    have hlength := (ofPayload p k h).length_payload
    rw [payload_ofPayload, h] at hlength
    exact ⟨ofPayload p k h, payload_ofPayload h, by omega⟩
  · rintro ⟨f, rfl, rfl⟩
    exact f.length_payload

end Fields

/-! ### Labels -/

/-- The text starts with a label. -/
def IsLabelled (label : String) (t : List Char) : Prop := label.toList <+: t

instance (label : String) (t : List Char) : Decidable (IsLabelled label t) :=
  inferInstanceAs (Decidable (label.toList <+: t))

theorem isLabelled_append (label : String) (value : List Char) :
    IsLabelled label (label.toList ++ value) :=
  List.prefix_append _ _

theorem labelled?_append (label : String) (value : List Char) :
    labelled? label (label.toList ++ value) = some value :=
  List.isPrefixOf?_eq_some_iff_append_eq.mpr rfl

theorem labelled?_eq_none_iff {label : String} {t : List Char} :
    labelled? label t = none ↔ ¬ IsLabelled label t := by
  rw [Option.eq_none_iff_forall_ne_some]
  constructor
  · rintro h ⟨value, rfl⟩
    exact h value (labelled?_append label value)
  · intro h value hvalue
    exact h ⟨value, List.isPrefixOf?_eq_some_iff_append_eq.mp hvalue⟩

/-- What texts give under a label: what follows it in the last text that starts with it. -/
inductive Gives (label : String) (texts : List (List Char)) : Option (List Char) → Prop
  | last (before after : List (List Char)) (value : List Char)
      (heq : texts = before ++ (label.toList ++ value) :: after)
      (hafter : ∀ t ∈ after, ¬ IsLabelled label t) : Gives label texts (some value)
  | nothing (hnone : ∀ t ∈ texts, ¬ IsLabelled label t) : Gives label texts none

/-- Texts give something under a label, or nothing. -/
theorem exists_gives (label : String) (texts : List (List Char)) :
    ∃ given, Gives label texts given := by
  induction texts with
  | nil => exact ⟨none, .nothing nofun⟩
  | cons t rest ih =>
    obtain ⟨_, ⟨before, after, value, heq, hafter⟩ | ⟨hnone⟩⟩ := ih
    · exact ⟨some value, .last (t :: before) after value (by rw [heq]; rfl) hafter⟩
    · by_cases ht : IsLabelled label t
      · obtain ⟨value, rfl⟩ := ht
        exact ⟨some value, .last [] rest value rfl hnone⟩
      · exact ⟨none, .nothing (List.forall_mem_cons.mpr ⟨ht, hnone⟩)⟩

/-- What texts give stands in the last of those with the label. -/
theorem Gives.getLast?_filter {label : String} {texts : List (List Char)}
    {given : Option (List Char)} (h : Gives label texts given) :
    (texts.filter (IsLabelled label ·)).getLast? = given.map (label.toList ++ ·) := by
  cases h with
  | last before after value heq hafter =>
    have hlabelled : IsLabelled label (label.toList ++ value) := isLabelled_append label value
    have hnone : after.filter (IsLabelled label ·) = [] :=
      List.filter_eq_nil_iff.mpr (by simpa using hafter)
    rw [heq, List.filter_append, List.filter_cons_of_pos (by simpa using hlabelled), hnone,
      List.getLast?_concat]
    rfl
  | nothing hnone =>
    rw [List.filter_eq_nil_iff.mpr (by simpa using hnone)]
    rfl

/-- What is given depends on the sequence of the texts with the label. -/
theorem Gives.eq_of_filter_eq {label : String} {texts texts' : List (List Char)}
    {given given' : Option (List Char)} (h : Gives label texts given)
    (h' : Gives label texts' given')
    (hsame : texts'.filter (IsLabelled label ·) = texts.filter (IsLabelled label ·)) :
    given' = given := by
  apply Option.map_injective (List.append_right_injective label.toList)
  rw [← h.getLast?_filter, ← h'.getLast?_filter, hsame]

/-! ### Taking the extensions -/

/-- A part of what is found is set by a label: to what follows it, as `put` keeps it, by a text that
starts with it. Any other text leaves the part as it is. -/
structure SetBy {α : Type} (label : String) (part : Found → α) (put : List Char → α) : Prop where
  labelled (found : Found) (value : List Char) :
    part (found.take (label.toList ++ value)) = put value
  unlabelled (found : Found) (t : List Char) :
    ¬ IsLabelled label t → part (found.take t) = part found

theorem firmware_setBy : SetBy "FWVER=" Found.firmware id where
  labelled found value := by
    rw [Found.take, labelled?_append]
    rfl
  unlabelled found t ht := by
    rw [Found.take, labelled?_eq_none_iff.mpr ht]
    dsimp only
    split <;> rfl

/-- The label of the firmware is looked for first, but no text starts with both. -/
theorem module_setBy : SetBy "MOD=" Found.module? some where
  labelled found value := by
    have hother : labelled? "FWVER=" ("MOD=".toList ++ value) = none := rfl
    rw [Found.take, hother, labelled?_append]
  unlabelled found t ht := by
    rw [Found.take, labelled?_eq_none_iff.mpr ht]
    split <;> rfl

section

variable {α : Type} {label : String} {part : Found → α} {put : List Char → α}
  {texts : List (List Char)} {given : Option (List Char)}

theorem SetBy.foldl_take_of_unlabelled (h : SetBy label part put)
    (hnone : ∀ t ∈ texts, ¬ IsLabelled label t) (found : Found) :
    part (texts.foldl Found.take found) = part found := by
  induction texts generalizing found with
  | nil => rfl
  | cons t rest ih =>
    obtain ⟨ht, hrest⟩ := List.forall_mem_cons.mp hnone
    rw [List.foldl_cons, ih hrest, h.unlabelled found t ht]

/-- After all texts a part is what they give under its label, if they give anything. -/
theorem SetBy.foldl_take (h : SetBy label part put) (hgives : Gives label texts given)
    (found : Found) : part (texts.foldl Found.take found) = given.elim (part found) put := by
  cases hgives with
  | last before after value heq hafter =>
    rw [heq, List.foldl_append, List.foldl_cons, h.foldl_take_of_unlabelled hafter, h.labelled]
    rfl
  | nothing hnone => exact h.foldl_take_of_unlabelled hnone found

end

/-- Both parts of what is found are what the texts give, whatever their order. -/
theorem foldl_take {texts : List (List Char)} {firmware? module? : Option (List Char)}
    (hfirmware : Gives "FWVER=" texts firmware?) (hmodule : Gives "MOD=" texts module?)
    (software : List Char) :
    texts.foldl Found.take ⟨software, none⟩ = ⟨firmware?.getD software, module?⟩ := by
  have hf : (texts.foldl Found.take ⟨software, none⟩).firmware = firmware?.getD software := by
    rw [firmware_setBy.foldl_take hfirmware]
    cases firmware? <;> rfl
  have hm : (texts.foldl Found.take ⟨software, none⟩).module? = module? := by
    rw [module_setBy.foldl_take hmodule]
    cases module? <;> rfl
  rw [← hf, ← hm]

/-! ### The version in words -/

/-- The name of the module, as it stands behind the version. -/
def bracketed : Option (List Char) → List Char
  | none => []
  | some name => " (".toList ++ name ++ ")".toList

theorem render_eq_none_iff {found : Found} : found.render = none ↔ found.firmware = [] := by
  unfold Found.render
  split
  · next hempty => exact iff_of_true rfl (List.isEmpty_iff.mp hempty)
  · next hsome =>
    have hne : found.firmware ≠ [] := mt List.isEmpty_iff.mpr hsome
    split <;> exact iff_of_false nofun hne

/-- A version consists of what is found for it and the name of the module in brackets. -/
theorem toList_of_render {found : Found} {s : String} (h : found.render = some s) :
    s.toList = found.firmware ++ bracketed found.module? := by
  unfold Found.render at h
  split at h
  · cases h
  · split at h
    · next hmodule =>
      cases h
      simp [hmodule, bracketed]
    · next name hmodule =>
      cases h
      simp [hmodule, bracketed]

namespace Fields

variable {f f' : Fields} {firmware? module? : Option (List Char)}

/-- The extensions that are read are those that the payload is made of. -/
theorem extensions?_payload (f : Fields) : extensions? f.payload = some f.texts := by
  have hrest : f.payload.drop headSize = f.extensions.flatten := by
    apply List.drop_left'
    rw [List.length_append, f.length_software, f.length_hardware]
    rfl
  have hruns : Config.chunksOf extensionSize f.extensions.flatten = f.extensions :=
    Config.chunksOf_flatten (by decide) f.length_extensions
  unfold extensions?
  rw [slice?_length f.headSize_le_length, hrest]
  simp only [Option.bind_eq_bind, Option.bind_some, hruns]
  exact mapM_eq_map fun field _ => fieldText?_eq field

/-- The version of a payload that is made of fields. -/
theorem version?_payload (f : Fields) (hfirmware : Gives "FWVER=" f.texts firmware?)
    (hmodule : Gives "MOD=" f.texts module?) :
    version? f.payload = some (Found.render ⟨firmware?.getD (text f.software), module?⟩) := by
  have hhead := f.headSize_le_length
  have htake : f.payload.take softwareSize = f.software := by
    rw [payload, List.append_assoc]
    exact List.take_left' f.length_software
  have hsoftware : slice? f.payload 0 softwareSize = some f.software := by
    rw [slice?_zero (Nat.le_trans (by decide) hhead), htake]
  have hwhole : (f.payload.length - headSize) % extensionSize = 0 := by
    rw [length_payload, headSize, Nat.add_sub_cancel_left]
    exact Nat.mul_mod_right _ _
  unfold version?
  rw [if_neg (Nat.not_lt.mpr hhead), sub?_eq_some hhead, hsoftware, extensions?_payload]
  simp only [Option.bind_eq_bind, Option.bind_some, hwhole, fieldText?_eq,
    foldl_take hfirmware hmodule]
  rfl

theorem version_payload (f : Fields) (hfirmware : Gives "FWVER=" f.texts firmware?)
    (hmodule : Gives "MOD=" f.texts module?) :
    version f.payload = Found.render ⟨firmware?.getD (text f.software), module?⟩ := by
  rw [version, f.version?_payload hfirmware hmodule]
  rfl

/-! ### What counts -/

/-- The extensions with a label, each up to its first NUL. -/
def labelled (label : String) (f : Fields) : List (List UInt8) :=
  (f.extensions.map ended).filter fun bytes => IsLabelled label (wording bytes)

theorem filter_texts (label : String) (f : Fields) :
    f.texts.filter (IsLabelled label ·) = (f.labelled label).map wording := by
  have htexts : f.texts = (f.extensions.map ended).map wording := List.map_map.symm
  rw [htexts, List.filter_map, labelled]
  rfl

theorem labelled_eq_nil_iff {label : String} {given : Option (List Char)}
    (h : Gives label f.texts given) : f.labelled label = [] ↔ given = none := by
  have hlast := h.getLast?_filter
  rw [filter_texts, List.getLast?_map] at hlast
  rw [← List.getLast?_eq_none_iff, ← Option.map_eq_none_iff, hlast, Option.map_eq_none_iff]

/-- Two payloads agree on what counts: the software version and the sequences of both kinds of
labelled extensions, each field up to its first NUL. Nothing is said of the hardware version, of
other extensions and of what stands between the labelled ones. -/
structure Agrees (f f' : Fields) : Prop where
  software : ended f'.software = ended f.software
  firmware : f'.labelled "FWVER=" = f.labelled "FWVER="
  modules : f'.labelled "MOD=" = f.labelled "MOD="

/-- Payloads that agree on what counts have the same version. -/
theorem version_eq_of_agrees (h : f.Agrees f') : version f'.payload = version f.payload := by
  obtain ⟨firmware?, hfirmware⟩ := exists_gives "FWVER=" f.texts
  obtain ⟨module?, hmodule⟩ := exists_gives "MOD=" f.texts
  obtain ⟨firmware'?, hfirmware'⟩ := exists_gives "FWVER=" f'.texts
  obtain ⟨module'?, hmodule'⟩ := exists_gives "MOD=" f'.texts
  have hf : firmware'? = firmware? :=
    hfirmware.eq_of_filter_eq hfirmware' (by rw [filter_texts, filter_texts, h.firmware])
  have hm : module'? = module? :=
    hmodule.eq_of_filter_eq hmodule' (by rw [filter_texts, filter_texts, h.modules])
  have hsoftware : text f'.software = text f.software := by rw [text, text, h.software]
  rw [f.version_payload hfirmware hmodule, f'.version_payload hfirmware' hmodule', hf, hm,
    hsoftware]

/-- The same payload with another software version. -/
def withSoftware (f : Fields) (software : List UInt8) (h : software.length = 30) : Fields :=
  { f with software, length_software := h }

/-- The software version is used exactly if no extension gives the version of the firmware. -/
theorem exists_version_ne_iff (f : Fields) :
    (∃ f' : Fields, f'.hardware = f.hardware ∧ f'.extensions = f.extensions
        ∧ version f'.payload ≠ version f.payload) ↔ f.labelled "FWVER=" = [] := by
  obtain ⟨firmware?, hfirmware⟩ := exists_gives "FWVER=" f.texts
  obtain ⟨module?, hmodule⟩ := exists_gives "MOD=" f.texts
  rw [labelled_eq_nil_iff hfirmware]
  constructor
  · rintro ⟨f', -, hextensions, hne⟩
    have htexts : f'.texts = f.texts := by rw [texts, texts, hextensions]
    cases firmware? with
    | none => rfl
    | some value =>
      rw [f.version_payload hfirmware hmodule,
        f'.version_payload (htexts ▸ hfirmware) (htexts ▸ hmodule)] at hne
      exact absurd rfl hne
  · rintro rfl
    have hversion (software : List UInt8) (h : software.length = 30) :
        version (f.withSoftware software h).payload = Found.render ⟨text software, module?⟩ :=
      (f.withSoftware software h).version_payload hfirmware hmodule
    -- one software version is empty and the other is not, so one of them makes a difference
    by_cases hnone : version f.payload = none
    · refine ⟨f.withSoftware (0x41 :: List.replicate 29 0) rfl, rfl, rfl, ?_⟩
      have hlettered : text (0x41 :: List.replicate 29 0) ≠ [] := by decide
      rw [hversion, hnone, ne_eq, render_eq_none_iff]
      exact hlettered
    · refine ⟨f.withSoftware (List.replicate 30 0) rfl, rfl, rfl, ?_⟩
      have hempty : Found.render ⟨text (List.replicate 30 0), module?⟩ = none :=
        render_eq_none_iff.mpr rfl
      rw [hversion, hempty]
      exact Ne.symm hnone

end Fields

end Version

open Version

/-- No access to a payload misses, so the version is what the program finds. -/
theorem version?_eq (p : List UInt8) : version? p = some (version p) := by
  obtain ⟨line, hline⟩ := Option.isSome_iff_exists.mp (isSome_version? p)
  rw [version, hline]
  rfl

theorem version_eq_none_of_length {p : List UInt8} (h : ∀ k, p.length ≠ 40 + 30 * k) :
    version p = none := by
  unfold version version?
  split
  · rfl
  · next hsize =>
    have hhead : headSize ≤ p.length := Nat.le_of_not_lt hsize
    have hrest : (p.length - headSize) % extensionSize ≠ 0 := by
      intro hwhole
      have hlength := h ((p.length - 40) / 30)
      rw [headSize] at hhead hwhole
      rw [extensionSize] at hwhole
      omega
    rw [sub?_eq_some hhead, Option.bind_eq_bind, Option.bind_some, if_pos hrest]
    rfl

/-- **The version is decided by the software version and by the extensions that are labelled, of
each kind the last one.** There is no version for a payload of another length than a head and whole
extensions. Otherwise the version that is chosen is what the last `FWVER=` extension gives or, if
there is none, the software version; there is no version exactly if what is chosen is empty, and the
name of the module that the last `MOD=` extension gives stands behind it. Payloads that agree on
what counts have the same version, and the software version makes a difference exactly if there is
no `FWVER=` extension. -/
theorem version_of_fields :
    (∀ p : List UInt8, version? p = some (version p))
      ∧ (∀ p : List UInt8, (∀ k, p.length ≠ 40 + 30 * k) → version p = none)
      ∧ (∀ (p : List UInt8) (k : Nat), p.length = 40 + 30 * k ↔
          ∃ f : Fields, f.payload = p ∧ f.extensions.length = k)
      ∧ ∀ f : Fields,
          (∃ firmware? module? chosen, Gives "FWVER=" f.texts firmware?
              ∧ Gives "MOD=" f.texts module? ∧ chosen = firmware?.getD (text f.software)
              ∧ (version f.payload = none ↔ chosen = [])
              ∧ ∀ s, version f.payload = some s → s.toList = chosen ++ bracketed module?)
            ∧ (∀ f' : Fields, f.Agrees f' → version f'.payload = version f.payload)
            ∧ ((∃ f' : Fields, f'.hardware = f.hardware ∧ f'.extensions = f.extensions
                ∧ version f'.payload ≠ version f.payload) ↔ f.labelled "FWVER=" = []) := by
  refine ⟨version?_eq, fun _ => version_eq_none_of_length, fun _ _ => Fields.length_eq_iff, ?_⟩
  intro f
  refine ⟨?_, fun _ => Fields.version_eq_of_agrees, f.exists_version_ne_iff⟩
  obtain ⟨firmware?, hfirmware⟩ := exists_gives "FWVER=" f.texts
  obtain ⟨module?, hmodule⟩ := exists_gives "MOD=" f.texts
  refine ⟨firmware?, module?, _, hfirmware, hmodule, rfl, ?_, ?_⟩
  · rw [f.version_payload hfirmware hmodule]
    exact render_eq_none_iff
  · intro s hs
    rw [f.version_payload hfirmware hmodule] at hs
    exact toList_of_render hs

/-- A field with a text, its NUL and something else behind it. -/
def fieldOf (size : Nat) (rest : UInt8) (t : String) : List UInt8 :=
  let bytes := t.toList.map fun c => UInt8.ofNat c.toNat
  bytes ++ 0 :: List.replicate (size - 1 - bytes.length) rest

/-- A payload with two versions of the firmware. -/
def updated : Fields where
  software := fieldOf 30 0 "EXT CORE 1.00"
  hardware := fieldOf 10 0 "00190000"
  extensions := [fieldOf 30 0 "ROM BASE 0x118B2060", fieldOf 30 0 "FWVER=HPG 1.12",
    fieldOf 30 0 "MOD=ZED-F9P", fieldOf 30 0 "FWVER=HPG 1.13"]
  length_software := by decide
  length_hardware := by decide
  length_extensions := by decide

/-- The same for another hardware version, with the module first, other extensions and something
behind each NUL. -/
def updatedRearranged : Fields where
  software := fieldOf 30 0xff "EXT CORE 1.00"
  hardware := fieldOf 10 0x42 "007"
  extensions := [fieldOf 30 0x41 "MOD=ZED-F9P", fieldOf 30 0x20 "FWVER=HPG 1.12",
    fieldOf 30 0x42 "FWVER=HPG 1.13", fieldOf 30 0 "PROTVER=27.12", fieldOf 30 1 "GPS;GLO;GAL;BDS"]
  length_software := by decide
  length_hardware := by decide
  length_extensions := by decide

theorem version_of_fields_rearranged :
    version (List.replicate 39 0x41) = none
      ∧ (∃ f : Fields, f.payload = updated.payload ∧ f.extensions.length = 4)
      ∧ updated.Agrees updatedRearranged
      ∧ version updatedRearranged.payload = some "HPG 1.13 (ZED-F9P)" := by
  obtain ⟨-, hother, hfields, hversion⟩ := version_of_fields
  obtain ⟨⟨firmware?, module?, chosen, hfirmware, hmodule, rfl, hnone, hsome⟩, hagree, -⟩ :=
    hversion updated
  have hagrees : updated.Agrees updatedRearranged := ⟨by decide, by decide, by decide⟩
  have hf : some "HPG 1.13".toList = firmware? :=
    hfirmware.eq_of_filter_eq (.last (updated.texts.take 3) [] _ (by decide) nofun) rfl
  have hm : some "ZED-F9P".toList = module? :=
    hmodule.eq_of_filter_eq
      (.last (updated.texts.take 2) (updated.texts.drop 3) _ (by decide) (by decide)) rfl
  have hcut (k : Nat) : (List.replicate 39 (0x41 : UInt8)).length ≠ 40 + 30 * k := by
    rw [List.length_replicate]
    omega
  subst hf hm
  refine ⟨hother _ hcut, (hfields _ 4).mp updated.length_payload, hagrees, ?_⟩
  rw [hagree _ hagrees]
  cases h : version updated.payload with
  | none => exact absurd (hnone.mp h) (by decide)
  | some s => exact congrArg some (String.toList_injective (hsome s h))

end GnssLink.Report
