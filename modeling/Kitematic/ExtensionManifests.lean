import Kitematic.CharPatterns
import Kitematic.Regex

/-! Manifests of marketplace extensions, and the two validators and the invariants they are
checked with. -/

namespace Kitematic.ExtensionManifests
open CharPatterns

/-- The code points of the zeros of the runs of ten decimal digits, `Nd` in Unicode 14. -/
def zeros : List ℕ :=
  [0x30, 0x660, 0x6F0, 0x7C0, 0x966, 0x9E6, 0xA66, 0xAE6, 0xB66, 0xBE6, 0xC66, 0xCE6, 0xD66,
    0xDE6, 0xE50, 0xED0, 0xF20, 0x1040, 0x1090, 0x17E0, 0x1810, 0x1946, 0x19D0, 0x1A80, 0x1A90,
    0x1B50, 0x1BB0, 0x1C40, 0x1C50, 0xA620, 0xA8D0, 0xA900, 0xA9D0, 0xA9F0, 0xAA50, 0xABF0,
    0xFF10, 0x104A0, 0x10D30, 0x11066, 0x110F0, 0x11136, 0x111D0, 0x112F0, 0x11450, 0x114D0,
    0x11650, 0x116C0, 0x11730, 0x118E0, 0x11950, 0x11C50, 0x11D50, 0x11DA0, 0x16A60, 0x16AC0,
    0x16B50, 0x1D7CE, 0x1D7D8, 0x1D7E2, 0x1D7EC, 0x1D7F6, 0x1E140, 0x1E2F0, 0x1E950, 0x1FBF0]

def isDigit (c : Char) : Bool := zeros.any fun first => first ≤ c.toNat && c.toNat < first + 10

def isAlnum (c : Char) : Bool := ('a' ≤ c && c ≤ 'z') || ('0' ≤ c && c ≤ '9')

def isSlug (c : Char) : Bool := isAlnum c || c = '-'

def isLabel (c : Char) : Bool := isAlnum c || c = '.' || c = '-'

/-- `re.match("^...$", text)`. -/
def fullMatch (p : Pattern) (text : String) : Bool := p.matchThen Regex.atEnd text.toList

def extensionIdPattern : Pattern :=
  .either (.seq (.set isAlnum) (.seq (.many isSlug) (.set isAlnum))) (.set isAlnum)

def versionPattern : Pattern :=
  .seq (.some isDigit) (.seq (.char '.') (.seq (.some isDigit) (.seq (.char '.')
    (.seq (.some isDigit) (.seq (.maybe (.seq (.char '-') (.some isLabel)))
      (.maybe (.seq (.char '+') (.some isLabel))))))))

namespace MarketplaceInvariants

def minExtensionIdLength : ℕ := 3
def maxExtensionIdLength : ℕ := 64
def maxCapabilitiesPerExtension : ℕ := 50
def minCapabilitiesPerExtension : ℕ := 1

def validateExtensionId (extensionId : String) : List String :=
  (if extensionId.length < minExtensionIdLength then
    ["Extension ID too short (min " ++ toString minExtensionIdLength ++ ")"] else []) ++
  (if maxExtensionIdLength < extensionId.length then
    ["Extension ID too long (max " ++ toString maxExtensionIdLength ++ ")"] else []) ++
  (if fullMatch extensionIdPattern extensionId then []
    else ["Extension ID must be lowercase alphanumeric with hyphens"])

def validateVersion (version : String) : List String :=
  if fullMatch versionPattern version then []
  else ["Invalid version format (expected semver): " ++ version]

def validateCapabilities (capabilities : List String) : List String :=
  (if maxCapabilitiesPerExtension < capabilities.length then
    ["Too many capabilities (max " ++ toString maxCapabilitiesPerExtension ++ ")"] else []) ++
  (if capabilities.length < minCapabilitiesPerExtension then
    ["Too few capabilities (min " ++ toString minCapabilitiesPerExtension ++ ")"] else [])

end MarketplaceInvariants

/-- Of a manifest the fields that the validators and the stores of the marketplace read. -/
structure ExtensionManifest where
  extensionId : String
  name : String
  version : String
  publisherId : String
  capabilities : List String := []

namespace ExtensionManifest

def validateExtensionId (extensionId : String) : List String :=
  (if extensionId.length < 3 then ["Extension ID must be at least 3 characters"] else []) ++
  (if 64 < extensionId.length then ["Extension ID too long (max 64 chars)"] else []) ++
  (if fullMatch extensionIdPattern extensionId then []
    else ["Extension ID must be lowercase alphanumeric with hyphens"])

def versionErrors (version : String) : List String :=
  if fullMatch versionPattern version then [] else ["Invalid version format: " ++ version]

def validate (manifest : ExtensionManifest) : List String :=
  validateExtensionId manifest.extensionId ++ versionErrors manifest.version ++
    MarketplaceInvariants.validateCapabilities manifest.capabilities

end ExtensionManifest

namespace ExtensionManifestValidator

def validateCapabilities (capabilities : List String) : List String :=
  MarketplaceInvariants.validateCapabilities capabilities

/-- The errors of the capabilities are found and not added. -/
def validate (manifest : ExtensionManifest) : List String :=
  let errors := ExtensionManifest.validateExtensionId manifest.extensionId ++
    ExtensionManifest.versionErrors manifest.version
  let _capErrors := validateCapabilities manifest.capabilities
  errors

end ExtensionManifestValidator

/-- A slug: letters, digits and inner hyphens. -/
def IsSlug (text : List Char) : Prop :=
  (∀ c ∈ text, isSlug c = true) ∧ (∀ c, text.head? = some c → isAlnum c = true) ∧
    (∀ c, text.getLast? = some c → isAlnum c = true) ∧ text ≠ []

theorem isSlug_of_isAlnum {c : Char} (alnum : isAlnum c = true) : isSlug c = true := by
  simp [isSlug, alnum]

theorem accepts_extensionId {text : List Char} :
    extensionIdPattern.Accepts text ↔ IsSlug text := by
  simp only [extensionIdPattern, Pattern.Accepts, IsSlug]
  constructor
  · rintro (⟨_, _, rfl, ⟨c, first, rfl⟩, middle, _, rfl, inside, d, last, rfl⟩ | ⟨c, only, rfl⟩)
    · have ends : ([c] ++ (middle ++ [d])).getLast? = some d := by
        rw [← List.append_assoc, List.getLast?_concat]
      refine ⟨fun e member => ?_, by simpa using first, fun e isLast => ?_, by simp⟩
      · simp only [List.cons_append, List.nil_append, List.mem_cons, List.mem_append,
          List.not_mem_nil, or_false] at member
        rcases member with rfl | within | rfl
        · exact isSlug_of_isAlnum first
        · exact inside e within
        · exact isSlug_of_isAlnum last
      · exact Option.some.inj (ends.symm.trans isLast) ▸ last
    · simp [only, isSlug_of_isAlnum only]
  · rintro ⟨inside, first, last, filled⟩
    cases text with
    | nil => exact absurd rfl filled
    | cons c rest =>
      rcases List.eq_nil_or_concat' rest with rfl | ⟨middle, d, rfl⟩
      · exact .inr ⟨c, first c rfl, rfl⟩
      · refine .inl ⟨[c], middle ++ [d], by simp, ⟨c, first c rfl, rfl⟩, middle, [d], rfl, ?_, d, ?_,
          rfl⟩
        · intro e member
          exact inside e (by simp [member])
        · exact last d (by rw [← List.cons_append, List.getLast?_concat])

/-- The end that `$` stands for lets one newline through. -/
theorem fullMatch_iff {p : Pattern} {text : String} :
    fullMatch p text = true ↔
      p.Accepts text.toList ∨ ∃ front, text.toList = front ++ ['\n'] ∧ p.Accepts front := by
  rw [fullMatch, Pattern.matchThen_iff]
  constructor
  · rintro ⟨front, back, same, fits, ends⟩
    simp only [Regex.atEnd, Bool.or_eq_true, decide_eq_true_eq] at ends
    rcases ends with rfl | rfl
    · exact .inl (by simpa [same] using fits)
    · exact .inr ⟨front, same, fits⟩
  · rintro (fits | ⟨front, same, fits⟩)
    · exact ⟨text.toList, [], by simp, fits, by simp [Regex.atEnd]⟩
    · exact ⟨front, ['\n'], same, fits, by simp [Regex.atEnd]⟩

theorem validateExtensionId_eq_nil {extensionId : String} :
    ExtensionManifest.validateExtensionId extensionId = [] ↔
      (3 ≤ extensionId.length ∧ extensionId.length ≤ 64) ∧ (IsSlug extensionId.toList ∨
        ∃ slug, extensionId.toList = slug ++ ['\n'] ∧ IsSlug slug) := by
  have pattern : fullMatch extensionIdPattern extensionId = true ↔ _ := fullMatch_iff
  simp only [accepts_extensionId] at pattern
  rw [← pattern]
  simp only [ExtensionManifest.validateExtensionId, List.append_eq_nil_iff, ite_eq_right_iff,
    List.cons_ne_nil, imp_false, Nat.not_lt, ite_eq_left_iff, Bool.not_eq_true, Bool.not_eq_false]

/-- The invariants turn down the same ids and versions, in other words. -/
theorem invariants_agree (extensionId version : String) :
    (MarketplaceInvariants.validateExtensionId extensionId = [] ↔
      ExtensionManifest.validateExtensionId extensionId = []) ∧
    (MarketplaceInvariants.validateVersion version = [] ↔
      ExtensionManifest.versionErrors version = []) := by
  constructor
  · simp [MarketplaceInvariants.validateExtensionId, ExtensionManifest.validateExtensionId,
      MarketplaceInvariants.minExtensionIdLength, MarketplaceInvariants.maxExtensionIdLength]
  · simp [MarketplaceInvariants.validateVersion, ExtensionManifest.versionErrors]

theorem validateCapabilities_eq_nil {capabilities : List String} :
    MarketplaceInvariants.validateCapabilities capabilities = [] ↔
      1 ≤ capabilities.length ∧ capabilities.length ≤ 50 := by
  simp [MarketplaceInvariants.validateCapabilities,
    MarketplaceInvariants.minCapabilitiesPerExtension,
    MarketplaceInvariants.maxCapabilitiesPerExtension, and_comm, Nat.one_le_iff_ne_zero]

/-- The manifest finds what the validator finds, and the errors of its capabilities after it. -/
theorem validate_eq (manifest : ExtensionManifest) :
    manifest.validate = ExtensionManifestValidator.validate manifest ++
      MarketplaceInvariants.validateCapabilities manifest.capabilities := rfl

/-- The validator and the manifest report the same errors, and one none exactly when the
other does. -/
def Agree (manifest : ExtensionManifest) : Prop :=
  ExtensionManifestValidator.validate manifest = manifest.validate ∧
    (ExtensionManifestValidator.validate manifest = [] ↔ manifest.validate = [])

/-- For every manifest they agree if and only if it has 1 to 50 capabilities. -/
theorem validators_agree_iff (manifest : ExtensionManifest) :
    Agree manifest ↔
      1 ≤ manifest.capabilities.length ∧ manifest.capabilities.length ≤ 50 := by
  rw [← validateCapabilities_eq_nil, Agree, validate_eq]
  constructor
  · intro agree
    simpa using agree.1
  · intro none
    simp [none]

def withoutCapabilities : ExtensionManifest := ⟨"my-extension", "Mine", "1.0.0", "acme", []⟩

/-- One gate lets it through, the other does not. -/
theorem no_capabilities_pass_validator :
    ExtensionManifestValidator.validate withoutCapabilities = [] ∧
      withoutCapabilities.validate = ["Too few capabilities (min 1)"] ∧
        ¬ Agree withoutCapabilities := by
  have passes : ExtensionManifestValidator.validate withoutCapabilities = [] := by decide +kernel
  have fails : withoutCapabilities.validate = ["Too few capabilities (min 1)"] := by decide +kernel
  refine ⟨passes, fails, fun agree => ?_⟩
  have none := agree.2.mp passes
  rw [fails] at none
  cases none

end Kitematic.ExtensionManifests
