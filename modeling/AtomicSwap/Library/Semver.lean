import AtomicSwap.Library.Decimal.Text
import AtomicSwap.Library.Text

-- Versions that are compared number by number. Their texts are read leniently: a leading `v`, zeros
-- before a number and a missing second and third number are allowed.
namespace Semver

def isIdentifier (c : Char) : Bool :=
  c.isAlphanum || c == '-'

-- Identifiers are separated by dots.
def identifiers (s : List Char) : Bool :=
  s.all (fun c => isIdentifier c || c == '.') && (s.splitOn '.').all (!·.isEmpty)

def startsZero (s : List Char) : Bool :=
  s.all Char.isDigit && 1 < s.length && s.head? == some '0'

def validPrerelease (s : List Char) : Bool :=
  identifiers s && (s.splitOn '.').all (!startsZero ·)

abbrev Prerelease := { s : List Char // s = [] ∨ validPrerelease s }
abbrev Metadata := { s : List Char // s = [] ∨ identifiers s }

def Prerelease.none : Prerelease := ⟨[], .inl rfl⟩
def Metadata.none : Metadata := ⟨[], .inl rfl⟩

structure Version where
  major    : UInt64
  minor    : UInt64
  patch    : UInt64
  pre      : Prerelease := .none
  metadata : Metadata   := .none
  deriving DecidableEq

-- A number after a dot, which may be missing.
def segment : List Char → List Char × List Char
  | '.' :: s =>
    if s.takeWhile Char.isDigit = [] then ([], '.' :: s)
    else (s.takeWhile Char.isDigit, s.dropWhile Char.isDigit)
  | s => ([], s)

def segmentValue (s : List Char) : Option ℕ :=
  if s = [] then some 0 else Decimal.parseUint 64 s

def prerelease : List Char → Option (Prerelease × List Char)
  | '-' :: s =>
    if h : validPrerelease (s.takeWhile (· ≠ '+')) then
      some (⟨s.takeWhile (· ≠ '+'), .inr h⟩, s.dropWhile (· ≠ '+'))
    else none
  | s => some (.none, s)

def metadata : List Char → Option Metadata
  | []       => some .none
  | '+' :: s => if h : identifiers s then some ⟨s, .inr h⟩ else none
  | _        => none

def newVersion (s : List Char) : Option Version := do
  let s := if s.head? = some 'v' then s.tail else s
  let major := s.takeWhile Char.isDigit
  let (minor, s) := segment (s.dropWhile Char.isDigit)
  let (patch, s) := segment s
  let (pre, s) ← prerelease s
  let metadata ← metadata s
  let major ← Decimal.parseUint 64 major
  let minor ← segmentValue minor
  let patch ← segmentValue patch
  return { major := .ofNat major, minor := .ofNat minor, patch := .ofNat patch, pre, metadata }

namespace Version

-- A suffix with its mark, if there is one.
def suffix (mark : Char) (s : List Char) : List Char :=
  if s = [] then [] else mark :: s

def text (v : Version) : List Char :=
  Nat.toDigits 10 v.major.toNat ++ '.' :: (Nat.toDigits 10 v.minor.toNat ++
    '.' :: (Nat.toDigits 10 v.patch.toNat ++
      (suffix '-' v.pre.val ++ suffix '+' v.metadata.val)))

-- A prerelease precedes the version itself. The prereleases of two versions with the same numbers
-- are not compared here: the `o` that versions are compared with has none.
def greaterThan (v o : Version) : Bool :=
  v.major > o.major ∨ v.major = o.major ∧ (v.minor > o.minor ∨ v.minor = o.minor ∧
    v.patch > o.patch)

end Version

variable {c mark : Char} {s r : List Char}

theorem notMem_identifiers (h : identifiers s) (hi : isIdentifier c = false) (hd : c ≠ '.') :
    c ∉ s := by
  intro hc
  have ha := List.all_eq_true.mp (Bool.and_eq_true_iff.mp h).left c hc
  simp [hi, hd] at ha

theorem Prerelease.identifiers (p : Prerelease) (hp : p.val ≠ []) : identifiers p.val :=
  (Bool.and_eq_true_iff.mp <| p.property.resolve_left hp).left

-- Only identifiers and dots follow the mark of a suffix.
theorem notMem_suffix (h : s = [] ∨ identifiers s) (hi : isIdentifier c = false) (hd : c ≠ '.')
    (hm : c ≠ mark) : c ∉ Version.suffix mark s := by
  rcases h with rfl | h
  · simp [Version.suffix]
  · simp only [Version.suffix]
    split
    · simp
    · simpa [hm] using notMem_identifiers h hi hd

theorem segment_toDigits {n : ℕ} (hr : Text.Stops Char.isDigit r) :
    segment ('.' :: (Nat.toDigits 10 n ++ r)) = (Nat.toDigits 10 n, r) := by
  simp only [segment, Text.takeWhile_token Text.isDigit_toDigits hr,
    Text.dropWhile_token Text.isDigit_toDigits hr, if_neg Nat.toDigits_ne_nil]

theorem segmentValue_toDigits (n : UInt64) :
    segmentValue (Nat.toDigits 10 n.toNat) = some n.toNat := by
  rw [segmentValue, if_neg Nat.toDigits_ne_nil, Decimal.parseUint_toDigits n.toNat_lt]

theorem stops_suffix (p : Prerelease) (m : Metadata) :
    Text.Stops Char.isDigit (Version.suffix '-' p.val ++ Version.suffix '+' m.val) := by
  simp only [Version.suffix]
  (repeat' split) <;> simp [Text.Stops]

theorem prerelease_suffix (p : Prerelease) (m : Metadata) :
    prerelease (Version.suffix '-' p.val ++ Version.suffix '+' m.val) =
      some (p, Version.suffix '+' m.val) := by
  obtain ⟨s, hs⟩ := p
  by_cases h₀ : s = []
  case pos =>
    subst h₀
    simp only [Version.suffix, if_pos, List.nil_append]
    split <;> rfl
  case neg =>
    have hv : validPrerelease s := hs.resolve_left h₀
    have hc : ∀ c ∈ s, decide (c ≠ '+') := by
      rintro c hc
      refine decide_eq_true fun h => ?_
      exact notMem_identifiers (Bool.and_eq_true_iff.mp hv).left (by decide) (by decide) (h ▸ hc)
    have hr : Text.Stops (· ≠ '+') (Version.suffix '+' m.val) := by
      simp only [Version.suffix]
      split <;> simp [Text.Stops]
    have ht := Text.takeWhile_token hc hr
    have hd := Text.dropWhile_token hc hr
    rw [show Version.suffix '-' s = '-' :: s from if_neg h₀, List.cons_append]
    simp only [prerelease, ht, hd, dif_pos hv]

theorem metadata_suffix (m : Metadata) : metadata (Version.suffix '+' m.val) = some m := by
  obtain ⟨s, hs⟩ := m
  by_cases h₀ : s = []
  case pos => subst h₀; rfl
  case neg =>
    rw [show Version.suffix '+' s = '+' :: s from if_neg h₀]
    simp only [metadata, dif_pos (hs.resolve_left h₀)]

namespace Version

variable {v v' : Version}

-- The text of a version is read back.
theorem newVersion_text : newVersion v.text = some v := by
  have hs := stops_suffix v.pre v.metadata
  have hd {s : List Char} : Text.Stops Char.isDigit ('.' :: s) :=
    Text.stops_cons (by decide)
  have hv : v.text.head? ≠ some 'v' := by
    intro h
    obtain ⟨c, s, hc⟩ := List.exists_cons_of_ne_nil <| Nat.toDigits_ne_nil (n := v.major.toNat)
    have hi := Text.isDigit_toDigits c (hc ▸ List.mem_cons_self)
    rw [text, hc] at h
    cases h
    contradiction
  have hm : Decimal.parseUint 64 (Nat.toDigits 10 v.major.toNat) = some v.major.toNat :=
    Decimal.parseUint_toDigits v.major.toNat_lt
  simp only [newVersion, if_neg hv]
  simp only [text, Text.takeWhile_token Text.isDigit_toDigits hd,
    Text.dropWhile_token Text.isDigit_toDigits hd, segment_toDigits hd, segment_toDigits hs,
    prerelease_suffix, metadata_suffix, segmentValue_toDigits, hm, Option.bind_eq_bind,
    Option.bind_some, UInt64.ofNat_toNat, pure]

theorem text_injective : Function.Injective text := by
  intro v v' h
  have := newVersion_text (v := v)
  rw [h, newVersion_text] at this
  exact (Option.some.inj this).symm

-- A character that no version has separates versions.
theorem notMem_text {c : Char} (hn : c.isDigit = false) (hi : isIdentifier c = false)
    (hd : c ≠ '.') (hp : c ≠ '+') : c ∉ v.text := by
  have hm : c ≠ '-' := by
    rintro rfl
    contradiction
  have ht {n : ℕ} : c ∉ Nat.toDigits 10 n := fun h => by
    simp [Text.isDigit_toDigits c h] at hn
  have hpre : v.pre.val = [] ∨ identifiers v.pre.val :=
    or_iff_not_imp_left.mpr v.pre.identifiers
  simp only [text, List.mem_append, List.mem_cons, not_or]
  exact ⟨ht, hd, ht, hd, ht, notMem_suffix hpre hi hd hm,
    notMem_suffix v.metadata.property hi hd hp⟩

end Version

end Semver
