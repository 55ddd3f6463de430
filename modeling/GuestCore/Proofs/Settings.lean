import GuestCore.Config
import GuestCore.Proofs.Literals
import Mathlib.Data.Bool.AllAny
import Mathlib.Data.List.DropRight
import Mathlib.Data.List.Forall2

/-!
# Settings Are Read Exactly

The two variables are consulted one after the other, each for its own setting.  A text is accepted
if it is a count, or for the depth limit the word for no limit, with any white space around it.
Every other text is reported as it stands and leaves the default in place.  Settings that are
written out are therefore read back, whatever white space is put around them.
-/

namespace GuestCore

/-! ## White space around a text -/

namespace Text

variable {chars core left right : List Char}

/-- The characters are the given ones with nothing but white space before and after them. -/
def IsPadded (chars core : List Char) : Prop :=
  ∃ left right, chars = left ++ core ++ right ∧ (∀ char ∈ left, isBlank char = true) ∧
    ∀ char ∈ right, isBlank char = true

theorem trimStart_append (hleft : ∀ char ∈ left, isBlank char = true) (rest : List Char) :
    trimStart (left ++ rest) = trimStart rest :=
  List.dropWhile_append_of_pos hleft

theorem trimEnd_append (hright : ∀ char ∈ right, isBlank char = true) (rest : List Char) :
    trimEnd (rest ++ right) = trimEnd rest := by
  have hreversed : ∀ char ∈ right.reverse, isBlank char = true := fun char hchar ↦
    hright char (List.mem_reverse.mp hchar)
  rw [trimEnd, List.reverse_append, trimStart_append hreversed, trimEnd]

theorem trimStart_cons {first : Char} (hfirst : isBlank first = false) (rest : List Char) :
    trimStart (first :: rest) = first :: rest :=
  List.dropWhile_cons_of_neg (by simp [hfirst])

theorem trimStart_of_solid (hcore : ∀ char ∈ core, isBlank char = false) :
    trimStart core = core := by
  cases core with
  | nil => rfl
  | cons first rest => exact trimStart_cons (hcore first List.mem_cons_self) rest

theorem trimEnd_of_solid (hcore : ∀ char ∈ core, isBlank char = false) :
    trimEnd core = core := by
  rw [trimEnd, trimStart_of_solid, List.reverse_reverse]
  exact fun char hchar ↦ hcore char (List.mem_reverse.mp hchar)

theorem isPadded_trim (chars : List Char) : IsPadded chars (trim chars) := by
  refine ⟨chars.takeWhile isBlank, (trimStart chars).rtakeWhile isBlank, ?_,
    fun _ ↦ List.mem_takeWhile_imp, fun _ ↦ List.mem_rtakeWhile_imp⟩
  have hend : trim chars ++ (trimStart chars).rtakeWhile isBlank = trimStart chars :=
    List.rdropWhile_append_rtakeWhile
  rw [List.append_assoc, hend]
  exact List.takeWhile_append_dropWhile.symm

/-- Trimming finds the characters again if none of them is white space. -/
theorem isPadded_iff_trim_eq (hcore : ∀ char ∈ core, isBlank char = false) :
    IsPadded chars core ↔ trim chars = core := by
  constructor
  · rintro ⟨left, right, rfl, hleft, hright⟩
    rw [trim, List.append_assoc, trimStart_append hleft]
    cases core with
    | nil =>
      have hnothing : trimStart right = [] := List.dropWhile_eq_nil_iff.mpr hright
      rw [List.nil_append, hnothing]
      rfl
    | cons first rest =>
      rw [List.cons_append, trimStart_cons (hcore first List.mem_cons_self), ← List.cons_append,
        trimEnd_append hright, trimEnd_of_solid hcore]
  · rintro rfl
    exact isPadded_trim chars

/-- White space lies below and above the digits. -/
theorem isBlank_eq_false_of_isDigit {char : Char} (hdigit : char.isDigit = true) :
    isBlank char = false := by
  have hrange : 48 ≤ char.toNat ∧ char.toNat ≤ 57 := by
    rwa [Char.isDigit, Bool.and_eq_true, decide_eq_true_eq, decide_eq_true_eq] at hdigit
  simp only [isBlank, inRanges, blankRanges, List.any_cons, List.any_nil,
    Bool.or_eq_false_iff, Bool.and_eq_false_iff, decide_eq_false_iff_not, and_true]
  omega

/-! ## Letters in upper and lower case -/

theorem toNat_toLower (char : Char) :
    char.toLower.toNat =
      if 65 ≤ char.toNat ∧ char.toNat ≤ 90 then char.toNat + 32 else char.toNat := by
  unfold Char.toLower
  split
  · next hupper =>
    have hcode : 65 ≤ char.toNat ∧ char.toNat ≤ 90 := hupper
    have hsum : (char.val + 32).toNat = (char.toNat + 32) % 2 ^ 32 := UInt32.toNat_add ..
    rw [if_pos hcode]
    exact hsum.trans (Nat.mod_eq_of_lt (by omega))
  · next hupper => exact (if_neg hupper).symm

theorem toNat_toUpper {char : Char} (hlower : 97 ≤ char.toNat ∧ char.toNat ≤ 122) :
    char.toUpper.toNat + 32 = char.toNat := by
  have hcode : 'a'.val ≤ char.val ∧ char.val ≤ 'z'.val := hlower
  have hsum : char.toUpper.toNat = (char.toNat + (2 ^ 32 - 32)) % 2 ^ 32 :=
    (congrArg Char.toNat (dif_pos hcode)).trans (UInt32.toNat_add ..)
  omega

theorem toLower_eq_iff {char letter : Char} (hletter : letter.isLower = true) :
    char.toLower = letter ↔ char = letter ∨ char = letter.toUpper := by
  have hrange : 97 ≤ letter.toNat ∧ letter.toNat ≤ 122 :=
    (Bool.and_eq_true_iff.mp hletter).imp of_decide_eq_true of_decide_eq_true
  have hupper := toNat_toUpper hrange
  rw [← Char.toNat_inj, ← Char.toNat_inj, ← Char.toNat_inj, toNat_toLower]
  split <;> omega

theorem map_toLower_eq_iff {word : List Char} (hword : ∀ letter ∈ word, letter.isLower = true) :
    chars.map Char.toLower = word ↔
      List.Forall₂ (fun char letter ↦ char = letter ∨ char = letter.toUpper) chars word := by
  induction word generalizing chars with
  | nil => rw [List.map_eq_nil_iff, List.forall₂_nil_right_iff]
  | cons letter rest ih =>
    obtain ⟨hletter, hrest⟩ := List.forall_mem_cons.mp hword
    cases chars with
    | nil => simp
    | cons char chars =>
      rw [List.map_cons, List.cons_eq_cons, toLower_eq_iff hletter, ih hrest, List.forall₂_cons]

end Text

namespace Config

variable {chars digits : List Char} {n : ℕ}

/-! ## What the texts may be -/

/-- Decimal digits of a number below `2 ^ 64`: at least one, and any number of leading zeros. -/
structure IsDigits (digits : List Char) (n : ℕ) : Prop where
  ne_nil : digits ≠ []
  isDigit : ∀ char ∈ digits, char.isDigit = true
  value_eq : Integer.decimalValue digits = n
  lt : n < 2 ^ 64

inductive IsCount : List Char → ℕ → Prop
  | unsigned {digits : List Char} {n : ℕ} (hdigits : IsDigits digits n) : IsCount digits n
  | plus {digits : List Char} {n : ℕ} (hdigits : IsDigits digits n) : IsCount ('+' :: digits) n

/-- The word for no limit, each letter in upper or lower case. -/
def IsNoLimit (chars : List Char) : Prop :=
  List.Forall₂ (fun char letter ↦ char = letter ∨ char = letter.toUpper) chars
    ['n', 'o', 'n', 'e']

def IsCacheLimit (text : String) (limit : ℕ) : Prop :=
  ∃ core, Text.IsPadded text.toList core ∧ IsCount core limit

inductive IsDepthLimit (text : String) : Option ℕ → Prop
  | unlimited {core : List Char} (hpadded : Text.IsPadded text.toList core)
      (hcore : IsNoLimit core) : IsDepthLimit text none
  | limited {core : List Char} {limit : ℕ} (hpadded : Text.IsPadded text.toList core)
      (hcore : IsCount core limit) : IsDepthLimit text (some limit)

/-! ## Counts -/

theorem IsCount.isDigit_or_plus (hcount : IsCount chars n) :
    ∀ char ∈ chars, char.isDigit = true ∨ char = '+' := by
  cases hcount with
  | unsigned hdigits => exact fun char hchar ↦ .inl (hdigits.isDigit char hchar)
  | plus hdigits =>
    intro char hchar
    rcases List.mem_cons.mp hchar with rfl | hchar
    · exact .inr rfl
    · exact .inl (hdigits.isDigit char hchar)

theorem IsCount.solid (hcount : IsCount chars n) : ∀ char ∈ chars, Text.isBlank char = false := by
  intro char hchar
  rcases hcount.isDigit_or_plus char hchar with hdigit | rfl
  · exact Text.isBlank_eq_false_of_isDigit hdigit
  · rfl

/-- What follows the sign of a count. -/
def unsigned (chars : List Char) : List Char :=
  match chars with
  | '+' :: rest => rest
  | _ => chars

/-- The number that digits denote, if it is below the bound. -/
def digitsCount? (digits : List Char) : Option ℕ :=
  if digits.isEmpty || !digits.all Char.isDigit then none
  else if Nat.ofDigitChars 10 digits 0 < UInt64.size then some (Nat.ofDigitChars 10 digits 0)
  else none

theorem count?_eq (chars : List Char) : count? chars = digitsCount? (unsigned chars) := rfl

theorem digitsCount?_eq_some_iff : digitsCount? digits = some n ↔ IsDigits digits n := by
  have hforms : (digits.isEmpty || !digits.all Char.isDigit) = false ↔
      digits ≠ [] ∧ ∀ char ∈ digits, char.isDigit = true := by
    simp
  rw [digitsCount?, Option.ite_none_left_eq_some, Option.ite_none_right_eq_some,
    Bool.not_eq_true, hforms, Option.some_inj, ← Integer.decimalValue_eq]
  constructor
  · rintro ⟨⟨hne, hdigits⟩, hlt, rfl⟩
    exact ⟨hne, hdigits, rfl, hlt⟩
  · rintro ⟨hne, hdigits, rfl, hlt⟩
    exact ⟨⟨hne, hdigits⟩, hlt, rfl⟩

theorem isCount_iff : IsCount chars n ↔ IsDigits (unsigned chars) n := by
  constructor
  · rintro (hdigits | hdigits)
    · -- No digit is a plus sign.
      have hsame : unsigned chars = chars := by
        unfold unsigned
        split
        · exact absurd (hdigits.isDigit _ List.mem_cons_self) (by decide)
        · rfl
      rwa [hsame]
    · exact hdigits
  · unfold unsigned
    split
    · exact .plus
    · exact .unsigned

theorem count?_eq_some_iff : count? chars = some n ↔ IsCount chars n := by
  rw [count?_eq, digitsCount?_eq_some_iff, isCount_iff]

/-! ## The word for no limit -/

theorem spellsNone_iff : spellsNone chars = true ↔ IsNoLimit chars := by
  rw [spellsNone, beq_iff_eq]
  exact Text.map_toLower_eq_iff (List.all_eq_true.mp (by decide))

/-- Every character of the word is one of its letters, in one of the two cases. -/
theorem IsNoLimit.mem_letters (hchars : IsNoLimit chars) :
    ∀ char ∈ chars, char ∈ ['n', 'o', 'e', 'N', 'O', 'E'] := by
  have hmap : chars.map Char.toLower = ['n', 'o', 'n', 'e'] :=
    (Text.map_toLower_eq_iff (List.all_eq_true.mp (by decide))).mpr hchars
  intro char hchar
  have hlower : char.toLower ∈ ['n', 'o', 'n', 'e'] := hmap ▸ List.mem_map_of_mem hchar
  have hcases : ∀ letter ∈ ['n', 'o', 'n', 'e'],
      letter.isLower = true ∧ letter ∈ ['n', 'o', 'e'] ∧ letter.toUpper ∈ ['N', 'O', 'E'] :=
    List.all_iff_forall_prop.mp (by decide)
  obtain ⟨hletter, hsmall, hlarge⟩ := hcases _ hlower
  rcases (Text.toLower_eq_iff hletter).mp rfl with hsame | hsame
  · rw [hsame]
    exact List.mem_append_left ['N', 'O', 'E'] hsmall
  · rw [hsame]
    exact List.mem_append_right ['n', 'o', 'e'] hlarge

theorem IsNoLimit.solid (hchars : IsNoLimit chars) :
    ∀ char ∈ chars, Text.isBlank char = false := by
  have hsolid : ∀ char ∈ ['n', 'o', 'e', 'N', 'O', 'E'], Text.isBlank char = false :=
    List.all_iff_forall_prop.mp (by decide)
  exact fun char hchar ↦ hsolid char (hchars.mem_letters char hchar)

/-- No letter of the word stands in a count. -/
theorem IsCount.not_isNoLimit (hcount : IsCount chars n) : ¬ IsNoLimit chars := by
  intro hnone
  have hletters : ∀ char ∈ ['n', 'o', 'e', 'N', 'O', 'E'],
      ¬ (char.isDigit = true ∨ char = '+') := List.all_iff_forall_prop.mp (by decide)
  cases chars with
  | nil => cases hnone
  | cons first rest =>
    exact hletters first (hnone.mem_letters first List.mem_cons_self)
      (hcount.isDigit_or_plus first List.mem_cons_self)

/-! ## Texts of settings -/

theorem cacheLimit?_eq_some_iff (text : String) (limit : ℕ) :
    cacheLimit? text = some limit ↔ IsCacheLimit text limit := by
  rw [cacheLimit?, count?_eq_some_iff]
  constructor
  · exact fun hcount ↦ ⟨_, Text.isPadded_trim _, hcount⟩
  · rintro ⟨core, hpadded, hcount⟩
    rwa [(Text.isPadded_iff_trim_eq hcount.solid).mp hpadded]

theorem depthLimit?_eq_some_iff (text : String) (limit : Option ℕ) :
    depthLimit? text = some limit ↔ IsDepthLimit text limit := by
  rw [depthLimit?]
  constructor
  · intro hread
    split at hread
    · next hnone =>
      obtain rfl := Option.some.inj hread
      exact .unlimited (Text.isPadded_trim _) (spellsNone_iff.mp hnone)
    · obtain ⟨count, hcount, rfl⟩ := Option.map_eq_some_iff.mp hread
      exact .limited (Text.isPadded_trim _) (count?_eq_some_iff.mp hcount)
  · rintro (⟨hpadded, hcore⟩ | ⟨hpadded, hcore⟩)
    · rw [(Text.isPadded_iff_trim_eq hcore.solid).mp hpadded]
      exact if_pos (spellsNone_iff.mpr hcore)
    · have hcount := count?_eq_some_iff.mpr hcore
      rw [(Text.isPadded_iff_trim_eq hcore.solid).mp hpadded,
        if_neg fun hnone ↦ hcore.not_isNoLimit (spellsNone_iff.mp hnone), hcount]
      rfl

/-- What becomes of a setting when its variable is consulted, and what is reported. -/
inductive Consulted {α : Type} (accepts : String → α → Prop) (variableName : String)
    (default : α) : Option String → α → List TraceRecord → Prop
  | unset : Consulted accepts variableName default none default []
  /-- The text stands for exactly one value, which replaces the default. -/
  | accepted {text : String} {value : α} (haccepts : ∀ other, accepts text other ↔ other = value) :
      Consulted accepts variableName default (some text) value []
  | rejected {text : String} (hrejects : ∀ value, ¬ accepts text value) :
      Consulted accepts variableName default (some text) default
        [.ignoredSetting variableName text]

theorem override_consulted {α : Type} {read? : String → Option α} {accepts : String → α → Prop}
    (hread : ∀ text value, read? text = some value ↔ accepts text value)
    (variableName : String) (text? : Option String) (default : α) :
    Consulted accepts variableName default text?
      (override read? variableName text? default).1
      (override read? variableName text? default).2 := by
  cases text? with
  | none => exact .unset
  | some text =>
    cases hvalue : read? text with
    | none =>
      simp only [override, hvalue]
      refine .rejected fun value haccepts ↦ ?_
      rw [(hread text value).mpr haccepts] at hvalue
      cases hvalue
    | some value =>
      simp only [override, hvalue]
      refine .accepted fun other ↦ ?_
      rw [← hread, hvalue, Option.some_inj, eq_comm]

namespace Consulted

variable {α : Type} {accepts : String → α → Prop} {variableName : String} {default value : α}
  {text? : Option String} {complaints : List TraceRecord}

theorem of_accepts {text : String} {accepted : α}
    (hconsulted : Consulted accepts variableName default (some text) value complaints)
    (haccepts : accepts text accepted) : value = accepted ∧ complaints = [] := by
  cases hconsulted with
  | accepted hvalue => exact ⟨((hvalue accepted).mp haccepts).symm, rfl⟩
  | rejected hrejects => exact absurd haccepts (hrejects accepted)

theorem eq_default_or_accepts
    (hconsulted : Consulted accepts variableName default text? value complaints) :
    value = default ∨ ∃ text, accepts text value := by
  cases hconsulted with
  | unset | rejected => exact .inl rfl
  | accepted hvalue => exact .inr ⟨_, (hvalue value).mpr rfl⟩

theorem mem_complaints
    (hconsulted : Consulted accepts variableName default text? value complaints)
    {record : TraceRecord} (hrecord : record ∈ complaints) :
    ∃ text, text? = some text ∧ record = .ignoredSetting variableName text := by
  cases hconsulted with
  | unset | accepted => cases hrecord
  | rejected => exact ⟨_, rfl, List.mem_singleton.mp hrecord⟩

end Consulted

/-! ## Reading and writing settings -/

/-- The limits are numbers below `2 ^ 64`. -/
structure InRange (config : Config) : Prop where
  cacheLimit : config.cacheLimit < 2 ^ 64
  depthLimit : ∀ limit, config.depthLimit = some limit → limit < 2 ^ 64

/-- A depth limit as a text. -/
def depthText : Option ℕ → String
  | none => "none"
  | some limit => limit.repr

theorem isCount_repr (hlt : n < 2 ^ 64) : IsCount n.repr.toList n := by
  rw [Nat.toList_repr]
  refine .unsigned ⟨Nat.toDigits_ne_nil, Integer.isDigit_toDigits n, ?_, hlt⟩
  rw [Integer.decimalValue_eq, Nat.ofDigitChars_ten_toDigits]

theorem IsCount.lt (hcount : IsCount chars n) : n < 2 ^ 64 := by
  cases hcount with
  | unsigned hdigits | plus hdigits => exact hdigits.lt

theorem isDepthLimit_depthText {text : String} {limit : Option ℕ}
    (hpadded : Text.IsPadded text.toList (depthText limit).toList)
    (hlt : ∀ count, limit = some count → count < 2 ^ 64) : IsDepthLimit text limit := by
  cases limit with
  | none => exact .unlimited hpadded (spellsNone_iff.mp (by decide))
  | some count => exact .limited hpadded (isCount_repr (hlt count rfl))

/-- What is read with a lookup function, and what is reported. -/
structure ReadsSettings (lookup : String → Option String) (config : Config)
    (complaints : List TraceRecord) : Prop where
  /-- Each variable is consulted for its own setting, that for the cache limit first. -/
  consulted : ∃ cacheComplaints depthComplaints,
    Consulted IsCacheLimit "VALK_INLINE_CACHE_LIMIT" 2 (lookup "VALK_INLINE_CACHE_LIMIT")
      config.cacheLimit cacheComplaints ∧
    Consulted IsDepthLimit "VALK_MAX_CALL_DEPTH" none (lookup "VALK_MAX_CALL_DEPTH")
      config.depthLimit depthComplaints ∧
    complaints = cacheComplaints ++ depthComplaints
  /-- Complaints are warnings with the name of the variable and its text as it stands. -/
  warnings : ∀ record ∈ complaints, record.level = .warn ∧
    record.title = "ignoring invalid value" ∧
    ∃ variableName text, lookup variableName = some text ∧
      record.fields = [("var", variableName), ("value", text)]
  inRange : config.InRange

theorem inRange_of_consulted {config : Config} {cacheName depthName : String}
    {cacheText? depthText? : Option String} {cacheComplaints depthComplaints : List TraceRecord}
    (hcache : Consulted IsCacheLimit cacheName 2 cacheText? config.cacheLimit cacheComplaints)
    (hdepth : Consulted IsDepthLimit depthName none depthText? config.depthLimit
      depthComplaints) : config.InRange where
  cacheLimit := by
    rcases hcache.eq_default_or_accepts with hdefault | ⟨text, core, -, hcount⟩
    · rw [hdefault]
      decide
    · exact hcount.lt
  depthLimit limit hlimit := by
    rw [hlimit] at hdepth
    rcases hdepth.eq_default_or_accepts with hdefault | ⟨text, hlimited⟩
    · cases hdefault
    · cases hlimited with
      | limited _ hcount => exact hcount.lt

theorem ofLookup_readsSettings (lookup : String → Option String) :
    ReadsSettings lookup (ofLookup lookup).1 (ofLookup lookup).2 := by
  have hcache := override_consulted cacheLimit?_eq_some_iff cacheLimitVariable
    (lookup cacheLimitVariable) ({} : Config).cacheLimit
  have hdepth := override_consulted depthLimit?_eq_some_iff depthLimitVariable
    (lookup depthLimitVariable) ({} : Config).depthLimit
  refine ⟨⟨_, _, hcache, hdepth, rfl⟩, ?_, inRange_of_consulted hcache hdepth⟩
  intro record hrecord
  rcases List.mem_append.mp hrecord with hrecord | hrecord
  · obtain ⟨text, htext, rfl⟩ := hcache.mem_complaints hrecord
    exact ⟨rfl, rfl, _, _, htext, rfl⟩
  · obtain ⟨text, htext, rfl⟩ := hdepth.mem_complaints hrecord
    exact ⟨rfl, rfl, _, _, htext, rfl⟩

/-- Settings that are written out, with any white space around them, are read back. -/
theorem ofLookup_of_isPadded {config : Config} (hrange : config.InRange)
    {lookup : String → Option String} {cacheLimit depthLimit : String}
    (hcache : lookup cacheLimitVariable = some cacheLimit)
    (hdepth : lookup depthLimitVariable = some depthLimit)
    (hcachePadded : Text.IsPadded cacheLimit.toList config.cacheLimit.repr.toList)
    (hdepthPadded : Text.IsPadded depthLimit.toList (depthText config.depthLimit).toList) :
    ofLookup lookup = (config, []) := by
  obtain ⟨cacheComplaints, depthComplaints, hcacheRead, hdepthRead, hcomplaints⟩ :=
    (ofLookup_readsSettings lookup).consulted
  change lookup "VALK_INLINE_CACHE_LIMIT" = _ at hcache
  change lookup "VALK_MAX_CALL_DEPTH" = _ at hdepth
  rw [hcache] at hcacheRead
  rw [hdepth] at hdepthRead
  obtain ⟨hcacheLimit, rfl⟩ :=
    hcacheRead.of_accepts ⟨_, hcachePadded, isCount_repr hrange.cacheLimit⟩
  obtain ⟨hdepthLimit, rfl⟩ :=
    hdepthRead.of_accepts (isDepthLimit_depthText hdepthPadded hrange.depthLimit)
  have hconfig : (ofLookup lookup).1 = config := by
    calc
      (ofLookup lookup).1 = ⟨(ofLookup lookup).1.cacheLimit, (ofLookup lookup).1.depthLimit⟩ := rfl
      _ = config := by rw [hcacheLimit, hdepthLimit]
  exact Prod.ext hconfig hcomplaints

/-- Whatever the lookup function, each setting is read from its own variable and from nothing else,
and settings that are written out are read back. -/
theorem settings_read_exactly :
    (∀ lookup : String → Option String,
      ReadsSettings lookup (ofLookup lookup).1 (ofLookup lookup).2) ∧
    (∀ lookup other : String → Option String,
      (lookup "VALK_INLINE_CACHE_LIMIT" = other "VALK_INLINE_CACHE_LIMIT" →
        (ofLookup lookup).1.cacheLimit = (ofLookup other).1.cacheLimit) ∧
      (lookup "VALK_MAX_CALL_DEPTH" = other "VALK_MAX_CALL_DEPTH" →
        (ofLookup lookup).1.depthLimit = (ofLookup other).1.depthLimit)) ∧
    ∀ (config : Config) (lookup : String → Option String) (cacheLimit depthLimit : String),
      config.InRange → lookup "VALK_INLINE_CACHE_LIMIT" = some cacheLimit →
        lookup "VALK_MAX_CALL_DEPTH" = some depthLimit →
          Text.IsPadded cacheLimit.toList config.cacheLimit.repr.toList →
            Text.IsPadded depthLimit.toList (depthText config.depthLimit).toList →
              ofLookup lookup = (config, []) := by
  refine ⟨ofLookup_readsSettings, fun lookup other ↦ ⟨fun hsame ↦ ?_, fun hsame ↦ ?_⟩, ?_⟩
  · change (override cacheLimit? _ (lookup "VALK_INLINE_CACHE_LIMIT") _).1 = _
    rw [hsame]
    rfl
  · change (override depthLimit? _ (lookup "VALK_MAX_CALL_DEPTH") _).1 = _
    rw [hsame]
    rfl
  · intro config lookup cacheLimit depthLimit hrange hcache hdepth hcachePadded hdepthPadded
    exact ofLookup_of_isPadded hrange hcache hdepth hcachePadded hdepthPadded

/-- Variables of which both are set. -/
def bothVariables (cacheLimit depthLimit : String) (variableName : String) : Option String :=
  if variableName = cacheLimitVariable then some cacheLimit
  else if variableName = depthLimitVariable then some depthLimit
  else none

/-- The largest limit and no limit are read back.  Of two texts of which the first is too large and
the second is not, only the first is reported. -/
theorem settings_read_exactly_bothVariables :
    let config : Config := { cacheLimit := 18446744073709551615 }
    let written := bothVariables "\t18446744073709551615\u3000" "none\r\n"
    let other := bothVariables " 18446744073709551616" "none\r\n"
    (config.InRange ∧ ofLookup written = (config, [])) ∧
      (ofLookup other).1.depthLimit = (ofLookup written).1.depthLimit ∧
      ofLookup other =
        ({}, [.ignoredSetting "VALK_INLINE_CACHE_LIMIT" " 18446744073709551616"]) := by
  intro config written other
  have hrange : config.InRange := ⟨by decide, nofun⟩
  obtain ⟨-, hindependent, hread⟩ := settings_read_exactly
  refine ⟨⟨hrange, hread config written _ _ hrange rfl rfl ?_ ?_⟩,
    (hindependent other written).2 rfl, by decide +kernel⟩
  · exact ⟨['\t'], ['\u3000'], by decide +kernel, List.all_eq_true.mp (by decide),
      List.all_eq_true.mp (by decide)⟩
  · exact ⟨[], ['\r', '\n'], by decide +kernel, nofun, List.all_eq_true.mp (by decide)⟩

end Config

end GuestCore
