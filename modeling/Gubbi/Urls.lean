import Gubbi.Library.Fallible
import Gubbi.Validation

/-!
# Splitting a URL

`urlsplit` of `urllib.parse`, which is lenient: it drops the control characters and blanks
that a URL starts with and all tabs and line breaks in it, and it does not tell an empty
query, fragment or port from a missing one.
-/

namespace Urls

open Text Validation

/-- `text.partition(sep)`: what is before the first `sep`, and what is after it. -/
def partition (sep : CodePoint) : PyStr → PyStr × Option PyStr
  | [] => ([], none)
  | c :: rest =>
    if c = sep then ([], some rest) else (c :: (partition sep rest).1, (partition sep rest).2)

/-- `text.rpartition(sep)[2]`. -/
def afterLast (sep : CodePoint) (text : PyStr) : PyStr := (partition sep text.reverse).1.reverse

/-- What the code uses of Unicode, of `ipaddress` and of `repr`. -/
structure UrlLibrary where
  nfkc : PyStr → PyStr
  /-- The text of the `ValueError` for brackets that hold no IP literal. -/
  checkBracketedNetloc : PyStr → Except PyStr Unit
  repr : PyStr → PyStr

structure SplitResult where
  scheme : PyStr
  netloc : PyStr
  path : PyStr
  query : PyStr
  fragment : PyStr
  deriving DecidableEq

/-- `_UNSAFE_URL_BYTES_TO_REMOVE`. -/
def isUnsafe (c : CodePoint) : Bool := c.val = 0x09 || c.val = 0x0a || c.val = 0x0d

/-- `_WHATWG_C0_CONTROL_OR_SPACE`. -/
def isControlOrSpace (c : CodePoint) : Bool := c.val ≤ 0x20

def isSchemeChar (c : CodePoint) : Bool :=
  isAlnum c || c = ofChar '+' || c = ofChar '-' || c = ofChar '.'

/-- What ends a netloc. -/
def isDelimiter (c : CodePoint) : Bool := c = ofChar '/' || c = ofChar '?' || c = ofChar '#'

/-- The URL that is split. -/
def clean (url : PyStr) : PyStr := (url.dropWhile isControlOrSpace).filter (fun c => !isUnsafe c)

def splitScheme (url : PyStr) : PyStr × PyStr :=
  match partition (ofChar ':') url with
  | (c :: rest, some after) =>
    if (isUpper c || isLower c) && (c :: rest).all isSchemeChar then
      (lowerAscii (c :: rest), after)
    else ([], url)
  | _ => ([], url)

/-- The netloc after `//`, and the rest. -/
def splitNetloc (library : UrlLibrary) (url : PyStr) : Except PyStr (PyStr × PyStr) :=
  if (py "//").isPrefixOf url then
    let netloc := (url.drop 2).takeWhile (fun c => !isDelimiter c)
    let rest := (url.drop 2).dropWhile (fun c => !isDelimiter c)
    if netloc.contains (ofChar '[') && netloc.contains (ofChar ']') then
      (library.checkBracketedNetloc netloc).map (fun _ => (netloc, rest))
    else if netloc.contains (ofChar '[') || netloc.contains (ofChar ']') then
      .error (py "Invalid IPv6 URL")
    else .ok (netloc, rest)
  else .ok ([], url)

/-- `_checknetloc`: no letter is a delimiter under NFKC. -/
def checkNetloc (library : UrlLibrary) (netloc : PyStr) : Except PyStr Unit :=
  let n := netloc.filter (fun c => !(py "@:#?").contains c)
  if isAscii netloc then .ok ()
  else if library.nfkc n = n then .ok ()
  else if (library.nfkc n).any (fun c => (py "/?#@:").contains c) then
    .error (py "netloc '" ++ netloc ++ py "' contains invalid characters under NFKC normalization")
  else .ok ()

def urlsplit (library : UrlLibrary) (url : PyStr) : Except PyStr SplitResult := do
  let (scheme, url) := splitScheme (clean url)
  let (netloc, url) ← splitNetloc library url
  let (url, fragment) := partition (ofChar '#') url
  let (url, query) := partition (ofChar '?') url
  checkNetloc library netloc
  return ⟨scheme, netloc, url, query.getD [], fragment.getD []⟩

/-- `_hostinfo`; a missing port is empty. -/
def hostInfo (netloc : PyStr) : PyStr × PyStr :=
  let hostinfo := afterLast (ofChar '@') netloc
  match (partition (ofChar '[') hostinfo).2 with
  | some bracketed =>
    let (hostname, rest) := partition (ofChar ']') bracketed
    (hostname, (partition (ofChar ':') (rest.getD [])).2.getD [])
  | none =>
    let (hostname, port) := partition (ofChar ':') hostinfo
    (hostname, port.getD [])

def decimal (digits : PyStr) : Nat := digits.foldl (fun n c => 10 * n + (c.val - 0x30)) 0

def SplitResult.port (library : UrlLibrary) (parts : SplitResult) : Except PyStr (Option Nat) :=
  let port := (hostInfo parts.netloc).2
  if port = [] then .ok none
  else if port.all isDigit then
    if 4300 < port.length then
      .error (py "Exceeds the limit (4300 digits) for integer string conversion: value has " ++
        py (toString port.length) ++ py " digits; use sys.set_int_max_str_digits() to increase " ++
        py "the limit")
    else if decimal port ≤ 65535 then .ok (some (decimal port))
    else .error (py "Port out of range 0-65535")
  else .error (py "Port could not be cast to integer value as " ++ library.repr port)

/-- `bool(parts.hostname)`; a text that is lowered is not emptied. -/
def SplitResult.hasHostname (parts : SplitResult) : Bool := (hostInfo parts.netloc).1 ≠ []

theorem partition_append (sep : CodePoint) (text : PyStr) :
    text = (partition sep text).1 ++ (partition sep text).2.elim [] (sep :: ·) := by
  induction text with
  | nil => rfl
  | cons c rest ih =>
    rw [partition]
    split
    · next same => simp [same]
    · exact congrArg (c :: ·) ih

theorem eq_of_partition {sep : CodePoint} {text front rest : PyStr}
    (cut : partition sep text = (front, some rest)) : text = front ++ sep :: rest := by
  have whole := partition_append sep text
  rwa [cut] at whole

theorem isAscii_of_isSchemeChar {text : PyStr} (chars : text.all isSchemeChar = true) :
    isAscii text = true := by
  rw [isAscii, List.all_eq_true]
  intro c mem
  have := List.all_eq_true.mp chars c mem
  simp only [isSchemeChar, isAlnum, isUpper, isLower, isDigit, Bool.or_eq_true, Bool.and_eq_true,
    decide_eq_true_eq] at this
  rcases this with ((h | rfl) | rfl) | rfl
  · exact decide_eq_true (by omega)
  all_goals rfl

/-- A scheme that is found stands before the first colon. -/
theorem splitScheme_spec {url : PyStr} (found : (splitScheme url).1 ≠ []) :
    ∃ scheme, url = scheme ++ ofChar ':' :: (splitScheme url).2 ∧ isAscii scheme = true ∧
      lowerAscii scheme = (splitScheme url).1 := by
  unfold splitScheme at found ⊢
  split
  · next c rest after cut =>
    rw [cut] at found
    dsimp only at found
    split
    · next valid =>
      exact ⟨_, eq_of_partition cut, isAscii_of_isSchemeChar (Bool.and_eq_true_iff.mp valid).2, rfl⟩
    · next refused =>
      rw [if_neg refused] at found
      exact absurd rfl found
  · next other =>
    split at found
    · next c rest after cut => exact absurd cut (other c rest after)
    · exact absurd rfl found

/-- A netloc that is found stands after two slashes. -/
theorem splitNetloc_spec {library : UrlLibrary} {url netloc rest : PyStr}
    (split : splitNetloc library url = .ok (netloc, rest)) (found : netloc ≠ []) :
    url = py "//" ++ (netloc ++ rest) := by
  unfold splitNetloc at split
  dsimp only at split
  split at split
  · next slashes =>
    obtain ⟨after, rfl⟩ := List.isPrefixOf_iff_prefix.mp slashes
    have cut : (netloc, rest) = (after.takeWhile (fun c => !isDelimiter c),
        after.dropWhile (fun c => !isDelimiter c)) := by
      split at split
      · obtain ⟨_, _, same⟩ := Fallible.map_eq_ok.mp split
        exact same.symm
      · split at split
        · cases split
        · exact (Except.ok.inj split).symm
    obtain ⟨rfl, rfl⟩ := Prod.mk.inj cut
    rw [List.takeWhile_append_dropWhile]
  · exact absurd (Prod.mk.inj (Except.ok.inj split)).1.symm found

/-- Nothing but an empty query and an empty fragment. -/
theorem bare_of_empty {url : PyStr}
    (fragment : (partition (ofChar '#') url).2.getD [] = [])
    (path : (partition (ofChar '?') (partition (ofChar '#') url).1).1 = [])
    (query : (partition (ofChar '?') (partition (ofChar '#') url).1).2.getD [] = []) :
    ∀ c ∈ url, c = ofChar '?' ∨ c = ofChar '#' := by
  have only {sep : CodePoint} {rest : Option PyStr} (empty : rest.getD [] = []) :
      ∀ c ∈ rest.elim [] (sep :: ·), c = sep := by
    intro c mem
    cases rest with
    | none => cases mem
    | some tail =>
      rw [show tail = [] from empty] at mem
      exact List.mem_singleton.mp mem
  intro c mem
  rw [partition_append (ofChar '#') url, List.mem_append] at mem
  rcases mem with mem | mem
  · rw [partition_append (ofChar '?') (partition (ofChar '#') url).1, path] at mem
    exact .inl (only query c mem)
  · exact .inr (only fragment c mem)

/-- What an absolute URL without a path, a query or a fragment was. -/
theorem shape_of_urlsplit {library : UrlLibrary} {url : PyStr} {parts : SplitResult}
    (split : urlsplit library url = .ok parts) (absolute : parts.scheme ≠ [])
    (hosted : parts.netloc ≠ []) (path : parts.path = []) (query : parts.query = [])
    (fragment : parts.fragment = []) :
    ∃ scheme tail, clean url = scheme ++ py "://" ++ parts.netloc ++ tail ∧
      isAscii scheme = true ∧ lowerAscii scheme = parts.scheme ∧
      ∀ c ∈ tail, c = ofChar '?' ∨ c = ofChar '#' := by
  simp only [urlsplit, Fallible.bind_eq_ok] at split
  obtain ⟨⟨netloc, rest⟩, found, _, _, same⟩ := split
  obtain rfl := Except.ok.inj same
  obtain ⟨scheme, whole, ascii, lower⟩ := splitScheme_spec absolute
  have url' := splitNetloc_spec found hosted
  refine ⟨scheme, rest, ?_, ascii, lower, bare_of_empty fragment path query⟩
  rw [whole, url']
  simp [py]

end Urls
