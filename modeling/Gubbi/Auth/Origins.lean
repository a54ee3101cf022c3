import Gubbi.Auth.Strategies
import Gubbi.Urls

/-!
# The origin allowlist

An operator adds origins to the allowlist of the MCP endpoint. Each entry is checked by what
`urlsplit` makes of it, and is kept and compared as it was written; the middleware compares
the lower-cased `Origin` header with the lower-cased entries, and lets loopback origins pass.
-/

namespace Origins

open Text Validation Urls
open AuthStrategies (decodeLatin1)

/-- Why an origin is refused, if it is. -/
def originProblem (library : UrlLibrary) (origin : PyStr) : Option PyStr :=
  match urlsplit library origin with
  | .error exc => some (py "unparseable (" ++ exc ++ py ")")
  | .ok parts =>
    if parts.scheme ≠ py "http" ∧ parts.scheme ≠ py "https" then
      some (py "scheme must be http or https")
    else if parts.netloc = [] then some (py "missing host")
    else if parts.path ≠ [] ∨ parts.query ≠ [] ∨ parts.fragment ≠ [] then
      some (py "must carry no path, query, or fragment")
    else if ofChar '@' ∈ parts.netloc ∨ ofChar '*' ∈ parts.netloc then
      some (py "host must not contain userinfo or a wildcard")
    else
      match parts.port library with
      | .error exc => some (py "invalid port (" ++ exc ++ py ")")
      | .ok _ => if parts.hasHostname then none else some (py "missing host")

/-- `[,\n\r]`. A run of them is one separator: what is between two of a run is empty, and
empty items are dropped. -/
def isSeparator (c : CodePoint) : Bool := c = ofChar ',' || c = ofChar '\n' || c = ofChar '\r'

def splitCsvOrigins (v : PyStr) : Except PyStr (List PyStr) :=
  let stripped := strip v
  if (py "[").isPrefixOf stripped then
    .error (py "extra_allowed_origins expects a comma-separated string " ++
      py "(e.g. 'https://journal.example.com,https://mcp.example.com'), " ++
      py "not a JSON array. Drop the brackets and quotes.")
  else .ok (((stripped.splitOnP isSeparator).map strip).filter (fun item => !item.isEmpty))

def validateOrigins (library : UrlLibrary) (v : List PyStr) : Except PyStr (List PyStr) :=
  match v.findSome? (fun origin => (originProblem library origin).map (fun problem =>
    py "JOURNAL_EXTRA_ALLOWED_ORIGINS entry " ++ library.repr origin ++ py " is invalid: " ++
      problem ++ py ". Each entry must be a bare origin such as " ++
      py "'https://journal.example.com' or 'https://journal.example.com:8443'.")) with
  | some message => .error message
  | none => .ok v

/-- `extra_allowed_origins`, from `JOURNAL_EXTRA_ALLOWED_ORIGINS`. -/
def extraAllowedOrigins (library : UrlLibrary) (raw : PyStr) : Except PyStr (List PyStr) := do
  let items ← splitCsvOrigins raw
  validateOrigins library items

def DEFAULT_ALLOWED_ORIGINS : List PyStr := [py "https://claude.ai", py "https://chatgpt.com"]

/-- `ServerConfig.allowed_origins`. -/
def allowedOrigins (extra : List PyStr) : List PyStr := DEFAULT_ALLOWED_ORIGINS ++ extra

/-- What the middleware reads of an ASGI scope. -/
structure Scope where
  type : PyStr
  headers : List (Bytes × Bytes)

/-- `bytes.lower()`. -/
def lowerBytes (bytes : Bytes) : Bytes :=
  bytes.map (fun b => if 0x41 ≤ b ∧ b ≤ 0x5a then b + 0x20 else b)

/-- `b"origin"`. -/
def originKey : Bytes := [0x6f, 0x72, 0x69, 0x67, 0x69, 0x6e]

/-- The first `Origin` header. -/
def Scope.origin (scope : Scope) : Option PyStr :=
  (scope.headers.find? (fun header => lowerBytes header.1 = originKey)).map
    (fun header => decodeLatin1 header.2)

def LOOPBACK_ORIGINS : List PyStr :=
  [py "http://localhost", py "http://127.0.0.1", py "http://[::1]"]

inductive Answer
  | forwarded
  | response (error : PyStr) (statusCode : Nat)
  deriving DecidableEq

/-- `OriginValidationMiddleware.__call__`. -/
def originValidation (low : Lowering) (allowed : List PyStr) (scope : Scope) : Answer :=
  if scope.type ≠ py "http" then .forwarded
  else
    match scope.origin with
    | none => .forwarded
    | some origin =>
      let originLower := low.lower origin
      if LOOPBACK_ORIGINS.any (fun loopback =>
          originLower = loopback || (loopback ++ py ":").isPrefixOf originLower) then .forwarded
      else if originLower ∈ allowed.map low.lower then .forwarded
      else .response (py "origin not allowed") 403

/-- Characters that no letter is lowered across: the final sigma, the one letter that is
lowered by its context, does not look past them. -/
def endsWord (c : CodePoint) : Bool := isControlOrSpace c || isDelimiter c

structure Casing extends Lowering where
  lower_append : ∀ a c b, endsWord c = true → lower (a ++ c :: b) = lower a ++ c :: lower b

/-- Printable, in lower case and no delimiter. -/
def isHostChar (c : CodePoint) : Bool :=
  0x20 < c.val && c.val < 0x7f && !isUpper c && !isDelimiter c

/-- The hosts that a browser serialises: domains and addresses. A colon stands in brackets
only. -/
structure Browser where
  host : PyStr → Prop
  chars : ∀ h, host h → ∀ c ∈ h, isHostChar c = true
  brackets : ∀ h, host h → ofChar ':' ∈ h → h.getLast? = some (ofChar ']')

def schemes : List PyStr := [py "http", py "https"]

def defaultPort (scheme : PyStr) : PyStr := if scheme = py "http" then py "80" else py "443"

/-- A port in decimal digits. -/
def isPort (port : PyStr) : Bool := port ≠ [] && port.all isDigit && decimal port ≤ 65535

def isCanonicalPort (scheme port : PyStr) : Bool :=
  isPort port && (port.head? ≠ some (ofChar '0') || port.length = 1) && port ≠ defaultPort scheme

/-- A port and the colon before it. -/
def suffix : Option PyStr → PyStr
  | none => []
  | some port => ofChar ':' :: port

/-- The origins that a browser serialises. -/
def Serialised (browser : Browser) (origin : PyStr) : Prop :=
  ∃ scheme host port, scheme ∈ schemes ∧ browser.host host ∧
    (∀ p, port = some p → isCanonicalPort scheme p = true) ∧
    origin = scheme ++ py "://" ++ (host ++ suffix port)

/-- An entry that is the origin of some page, up to letter case. -/
def Live (low : Lowering) (browser : Browser) (entry : PyStr) : Prop :=
  ∃ origin, Serialised browser origin ∧ low.lower entry = low.lower origin

/-- A default or a configured origin, up to letter case. -/
def Listed (low : Lowering) (extra : List PyStr) (origin : PyStr) : Prop :=
  ∃ entry ∈ allowedOrigins extra, low.lower origin = low.lower entry

/-- A listed origin, or a loopback host with an optional port. -/
def Admitted (low : Lowering) (extra : List PyStr) (origin : PyStr) : Prop :=
  Listed low extra origin ∨
    ∃ loopback ∈ LOOPBACK_ORIGINS, ∃ port : Option PyStr, (∀ p, port = some p → isPort p = true) ∧
      low.lower origin = loopback ++ suffix port

/-- The entries are live, and the middleware forwards the admitted origins only. -/
structure Guarded (low : Lowering) (browser : Browser) (extra : List PyStr) (scope : Scope)
    (origin : PyStr) : Prop where
  live : ∀ entry ∈ extra, Live low browser entry
  exact : originValidation low (allowedOrigins extra) scope = .forwarded ↔
    Admitted low extra origin

/-- The part of a netloc before its port, and the port if there is a colon before it. -/
def hostAndPort (netloc : PyStr) : PyStr × Option PyStr :=
  match netloc.reverse.dropWhile isDigit with
  | [] => (netloc, none)
  | c :: front =>
    if c = ofChar ':' then (front.reverse, some (netloc.reverse.takeWhile isDigit).reverse)
    else (netloc, none)

/-- An entry that is kept as `urlsplit` read it: nothing was removed from it, it does not end
in a bare `?` or `#`, and its host and its port are written as a browser writes them. -/
structure Plain (library : UrlLibrary) (low : Lowering) (browser : Browser) (entry : PyStr) :
    Prop where
  safe : ∀ c ∈ entry, isUnsafe c = false
  start : ∀ c, entry.head? = some c → isControlOrSpace c = false
  bare : ∀ c ∈ entry, c ≠ ofChar '?' ∧ c ≠ ofChar '#'
  host : ∀ parts, urlsplit library entry = .ok parts →
    browser.host (hostAndPort (low.lower parts.netloc)).1
  port : ∀ parts, urlsplit library entry = .ok parts →
    ∀ p, (hostAndPort (low.lower parts.netloc)).2 = some p → isCanonicalPort parts.scheme p = true

/-- A loopback origin and a colon before something that is no port. -/
def Stray (low : Lowering) (origin : PyStr) : Prop :=
  ∃ loopback ∈ LOOPBACK_ORIGINS, ∃ rest, isPort rest = false ∧
    low.lower origin = loopback ++ ofChar ':' :: rest

section Entries
variable {library : UrlLibrary} {low : Casing} {browser : Browser} {entry : PyStr}
  {parts : SplitResult}

/-- What an accepted entry is split into. -/
theorem parts_of_accepted (accepted : originProblem library entry = none) :
    ∃ parts, urlsplit library entry = .ok parts ∧ parts.scheme ∈ schemes ∧ parts.netloc ≠ [] ∧
      parts.path = [] ∧ parts.query = [] ∧ parts.fragment = [] := by
  unfold originProblem at accepted
  split at accepted
  · cases accepted
  · next parts split =>
    refine ⟨parts, split, ?_⟩
    split at accepted
    · cases accepted
    · next scheme =>
      split at accepted
      · cases accepted
      · next netloc =>
        split at accepted
        · cases accepted
        · next rest =>
          simp only [ne_eq, not_or, not_not] at rest
          refine ⟨?_, netloc, rest⟩
          simp only [schemes, List.mem_cons, List.not_mem_nil, or_false]
          by_cases http : parts.scheme = py "http"
          · exact .inl http
          · exact .inr (not_not.mp fun https => scheme ⟨http, https⟩)

theorem clean_eq (safe : ∀ c ∈ entry, isUnsafe c = false)
    (start : ∀ c, entry.head? = some c → isControlOrSpace c = false) : clean entry = entry := by
  have kept : entry.dropWhile isControlOrSpace = entry := by
    cases entry with
    | nil => rfl
    | cons c rest => rw [List.dropWhile_cons, if_neg (by simp [start c rfl])]
  rw [clean, kept]
  exact List.filter_eq_self.mpr fun c mem => by simp [safe c mem]

/-- An entry that is kept as it was read, lower-cased. -/
theorem lower_entry (split : urlsplit library entry = .ok parts) (scheme : parts.scheme ∈ schemes)
    (hosted : parts.netloc ≠ []) (path : parts.path = []) (query : parts.query = [])
    (fragment : parts.fragment = []) (whole : clean entry = entry)
    (bare : ∀ c ∈ entry, c ≠ ofChar '?' ∧ c ≠ ofChar '#') :
    low.lower entry = parts.scheme ++ py "://" ++ low.lower parts.netloc := by
  have absolute : parts.scheme ≠ [] := by
    intro empty
    rw [empty] at scheme
    revert scheme
    decide
  obtain ⟨text, tail, shape, ascii, lower, marks⟩ :=
    shape_of_urlsplit split absolute hosted path query fragment
  have none : tail = [] := by
    apply List.eq_nil_iff_forall_not_mem.mpr
    intro c mem
    have inEntry : c ∈ entry := by
      rw [← whole, shape]
      exact List.mem_append_right _ mem
    rcases marks c mem with mark | mark
    · exact (bare c inEntry).1 mark
    · exact (bare c inEntry).2 mark
  have written : entry = (text ++ py ":/") ++ ofChar '/' :: parts.netloc := by
    rw [← whole, shape, none]
    simp [py]
  have front : low.lower (text ++ py ":/") = parts.scheme ++ py ":/" := by
    have ascii' : isAscii (text ++ py ":/") = true := by
      rw [isAscii, List.all_append, Bool.and_eq_true]
      exact ⟨ascii, by decide⟩
    rw [low.lower_ascii _ ascii', ← lower]
    simp only [lowerAscii, List.map_append]
    rfl
  rw [written, low.lower_append _ _ _ (by decide), front]
  simp [py]

theorem mem_lower {c : CodePoint} (mem : c ∈ entry) (ends : endsWord c = true) :
    c ∈ low.lower entry := by
  obtain ⟨a, b, rfl⟩ := List.append_of_mem mem
  rw [low.lower_append a c b ends]
  exact List.mem_append_right _ List.mem_cons_self

end Entries

section Netloc
variable {host netloc : PyStr} {port : Option PyStr}

theorem hostAndPort_append (netloc : PyStr) :
    (hostAndPort netloc).1 ++ suffix (hostAndPort netloc).2 = netloc := by
  unfold hostAndPort
  split
  · exact List.append_nil _
  · next c front rest =>
    split
    · next colon =>
      have whole := List.takeWhile_append_dropWhile (p := isDigit) (l := netloc.reverse)
      have := congrArg List.reverse whole
      rw [rest, List.reverse_append, List.reverse_cons, List.reverse_reverse, colon,
        List.append_assoc] at this
      exact this
    · exact List.append_nil _

theorem hostAndPort_none (brackets : ofChar ':' ∈ host → host.getLast? = some (ofChar ']')) :
    hostAndPort host = (host, none) := by
  unfold hostAndPort
  split
  · rfl
  · next c front rest =>
    rw [if_neg]
    rintro rfl
    have colon : ofChar ':' ∈ host := by
      have : ofChar ':' ∈ host.reverse.dropWhile isDigit := by
        rw [rest]
        exact List.mem_cons_self
      exact List.mem_reverse.mp ((List.dropWhile_sublist _).mem this)
    -- the last bracket is no digit, so that nothing is dropped before it
    have last := brackets colon
    rw [← List.head?_reverse] at last
    obtain ⟨front', first⟩ : ∃ front', host.reverse = ofChar ']' :: front' := by
      cases shape : host.reverse with
      | nil => simp [shape] at last
      | cons d front' =>
        rw [shape] at last
        exact ⟨front', by rw [Option.some.inj last]⟩
    rw [first, List.dropWhile_cons, if_neg (by decide)] at rest
    exact absurd (List.cons.inj rest).1 (by decide)

theorem hostAndPort_some {port : PyStr} (digits : ∀ c ∈ port, isDigit c = true) :
    hostAndPort (host ++ ofChar ':' :: port) = (host, some port) := by
  have shape : (host ++ ofChar ':' :: port).reverse =
      port.reverse ++ ofChar ':' :: host.reverse := by simp
  have digits' : ∀ c ∈ port.reverse, isDigit c = true :=
    fun c mem => digits c (List.mem_reverse.mp mem)
  have dropped : (host ++ ofChar ':' :: port).reverse.dropWhile isDigit =
      ofChar ':' :: host.reverse := by
    rw [shape, List.dropWhile_append_of_pos digits', List.dropWhile_cons, if_neg (by decide)]
  have taken : (host ++ ofChar ':' :: port).reverse.takeWhile isDigit = port.reverse := by
    rw [shape, List.takeWhile_append_of_pos digits', List.takeWhile_cons, if_neg (by decide),
      List.append_nil]
  unfold hostAndPort
  rw [dropped, taken]
  simp

/-- A host and a port that a browser writes are the ones that are found. -/
theorem hostAndPort_eq (brackets : ofChar ':' ∈ host → host.getLast? = some (ofChar ']'))
    (digits : ∀ p, port = some p → ∀ c ∈ p, isDigit c = true) :
    hostAndPort (host ++ suffix port) = (host, port) := by
  cases port with
  | none => rw [suffix, List.append_nil, hostAndPort_none brackets]
  | some p => exact hostAndPort_some (digits p rfl)

end Netloc

section Live
variable {library : UrlLibrary} {low : Casing} {browser : Browser} {entry origin : PyStr}
  {parts : SplitResult}

theorem isPort_of_canonical {scheme port : PyStr} (canonical : isCanonicalPort scheme port = true) :
    isPort port = true := by
  simp only [isCanonicalPort, Bool.and_eq_true] at canonical
  exact canonical.1.1

theorem digits_of_isPort {port : PyStr} (valid : isPort port = true) :
    ∀ c ∈ port, isDigit c = true := by
  simp only [isPort, Bool.and_eq_true] at valid
  exact List.all_eq_true.mp valid.1.2

theorem isHostChar_of_word {c : CodePoint} (word : isLower c = true ∨ isDigit c = true) :
    isHostChar c = true := by
  have delimiter : isDelimiter c = false := by
    simp only [isDelimiter, Bool.or_eq_false_iff, decide_eq_false_iff_not]
    refine ⟨⟨?_, ?_⟩, ?_⟩
    all_goals
      rintro rfl
      revert word
      decide
  simp only [isLower, isDigit, Bool.and_eq_true, decide_eq_true_eq] at word
  simp only [isHostChar, isUpper, delimiter, Bool.not_false, Bool.and_true, Bool.and_eq_true,
    decide_eq_true_eq, Bool.not_eq_true', Bool.and_eq_false_iff, decide_eq_false_iff_not]
  omega

/-- The characters of an origin. -/
def isOriginChar (c : CodePoint) : Bool := isHostChar c || c = ofChar '/'

theorem originChars (serialised : Serialised browser origin) :
    ∀ c ∈ origin, isOriginChar c = true := by
  obtain ⟨scheme, host, port, known, named, canonical, rfl⟩ := serialised
  have ofHost {c : CodePoint} (char : isHostChar c = true) : isOriginChar c = true := by
    rw [isOriginChar, char, Bool.true_or]
  have front : ∀ c ∈ scheme ++ py "://", isOriginChar c = true := by
    have : ∀ scheme ∈ schemes, (scheme ++ py "://").all isOriginChar = true := by decide
    exact List.all_eq_true.mp (this scheme known)
  intro c mem
  rcases List.mem_append.mp mem with mem | mem
  · exact front c mem
  rcases List.mem_append.mp mem with mem | mem
  · exact ofHost (browser.chars host named c mem)
  cases port with
  | none => cases mem
  | some p =>
    rcases List.mem_cons.mp mem with rfl | mem
    · decide
    · have digit := digits_of_isPort (isPort_of_canonical (canonical p rfl)) c mem
      exact ofHost (isHostChar_of_word (.inr digit))

theorem originChar_bounds {c : CodePoint} (char : isOriginChar c = true) :
    0x20 < c.val ∧ c.val < 0x80 ∧ isUpper c = false ∧ c ≠ ofChar '?' ∧ c ≠ ofChar '#' := by
  simp only [isOriginChar, Bool.or_eq_true, decide_eq_true_eq] at char
  rcases char with char | rfl
  · simp only [isHostChar, isDelimiter, Bool.and_eq_true, decide_eq_true_eq, Bool.not_eq_true',
      Bool.or_eq_false_iff, decide_eq_false_iff_not] at char
    exact ⟨char.1.1.1, by omega, char.1.2, char.2.1.2, char.2.2⟩
  · decide

theorem lower_serialised (serialised : Serialised browser origin) : low.lower origin = origin := by
  have bounds := fun c mem => originChar_bounds (originChars serialised c mem)
  have ascii : isAscii origin = true :=
    List.all_eq_true.mpr fun c mem => decide_eq_true (bounds c mem).2.1
  rw [low.lower_ascii origin ascii]
  exact lowerAscii_of_forall fun c mem => (bounds c mem).2.2.1

theorem live_iff : Live low.toLowering browser entry ↔ Serialised browser (low.lower entry) := by
  constructor
  · rintro ⟨origin, serialised, same⟩
    rw [same, lower_serialised serialised]
    exact serialised
  · intro serialised
    exact ⟨_, serialised, (lower_serialised serialised).symm⟩

/-- No scheme with its slashes starts another. -/
theorem scheme_eq {a b x y : PyStr} (ha : a ∈ schemes) (hb : b ∈ schemes)
    (same : a ++ py "://" ++ x = b ++ py "://" ++ y) : a = b ∧ x = y := by
  have apart : ∀ a ∈ schemes, ∀ b ∈ schemes,
      (a ++ py "://").take 5 = (b ++ py "://").take 5 → a = b := by decide
  have long : ∀ a ∈ schemes, 5 ≤ (a ++ py "://").length := by decide
  have first := congrArg (List.take 5) same
  rw [List.take_append_of_le_length (long a ha), List.take_append_of_le_length (long b hb)] at first
  obtain rfl := apart a ha b hb first
  exact ⟨rfl, List.append_cancel_left same⟩

theorem authority_of_serialised {scheme rest : PyStr} (known : scheme ∈ schemes)
    (serialised : Serialised browser (scheme ++ py "://" ++ rest)) :
    browser.host (hostAndPort rest).1 ∧
      ∀ p, (hostAndPort rest).2 = some p → isCanonicalPort scheme p = true := by
  obtain ⟨scheme', host, port, known', named, canonical, same⟩ := serialised
  obtain ⟨rfl, rfl⟩ := scheme_eq known known' same
  have digits : ∀ p, port = some p → ∀ c ∈ p, isDigit c = true :=
    fun p h => digits_of_isPort (isPort_of_canonical (canonical p h))
  rw [hostAndPort_eq (browser.brackets host named) digits]
  exact ⟨named, canonical⟩

/-- Each of the conditions is the only way to be an origin of a page. -/
theorem live_iff_plain (accepted : originProblem library entry = none) :
    Live low.toLowering browser entry ↔ Plain library low.toLowering browser entry := by
  obtain ⟨parts, split, scheme, hosted, path, query, fragment⟩ := parts_of_accepted accepted
  rw [live_iff]
  constructor
  · intro serialised
    have bounds {c : CodePoint} (mem : c ∈ entry) (ends : endsWord c = true) :=
      originChar_bounds (originChars serialised c (mem_lower mem ends))
    have control {c : CodePoint} (mem : c ∈ entry) : isControlOrSpace c = false := by
      cases blank : isControlOrSpace c with
      | false => rfl
      | true =>
        have := (bounds mem (by rw [endsWord, blank, Bool.true_or])).1
        rw [isControlOrSpace, decide_eq_true_eq] at blank
        omega
    have safe : ∀ c ∈ entry, isUnsafe c = false := by
      intro c mem
      have := control mem
      simp only [isControlOrSpace, decide_eq_false_iff_not] at this
      simp only [isUnsafe, Bool.or_eq_false_iff, decide_eq_false_iff_not]
      omega
    have start : ∀ c, entry.head? = some c → isControlOrSpace c = false :=
      fun c first => control (List.mem_of_head? first)
    have bare : ∀ c ∈ entry, c ≠ ofChar '?' ∧ c ≠ ofChar '#' := by
      intro c mem
      constructor
      · rintro rfl
        exact (bounds mem (by decide)).2.2.2.1 rfl
      · rintro rfl
        exact (bounds mem (by decide)).2.2.2.2 rfl
    rw [lower_entry split scheme hosted path query fragment (clean_eq safe start) bare]
      at serialised
    have authority := authority_of_serialised scheme serialised
    refine ⟨safe, start, bare, fun parts' again => ?_, fun parts' again => ?_⟩
    · obtain rfl := Except.ok.inj (split.symm.trans again)
      exact authority.1
    · obtain rfl := Except.ok.inj (split.symm.trans again)
      exact authority.2
  · intro plain
    have whole := clean_eq plain.safe plain.start
    rw [lower_entry split scheme hosted path query fragment whole plain.bare]
    refine ⟨parts.scheme, (hostAndPort (low.lower parts.netloc)).1,
      (hostAndPort (low.lower parts.netloc)).2, scheme, plain.host parts split,
      plain.port parts split, ?_⟩
    rw [hostAndPort_append]

end Live

section Forwarding
variable {low : Lowering} {allowed extra : List PyStr} {scope : Scope} {origin : PyStr}

theorem forwarded_iff (http : scope.type = py "http") (header : scope.origin = some origin) :
    originValidation low (allowedOrigins extra) scope = .forwarded ↔
      (∃ loopback ∈ LOOPBACK_ORIGINS, low.lower origin = loopback ∨
        ∃ rest, low.lower origin = loopback ++ ofChar ':' :: rest) ∨ Listed low extra origin := by
  have starts (loopback : PyStr) : ((loopback ++ py ":").isPrefixOf (low.lower origin) = true) ↔
      ∃ rest, low.lower origin = loopback ++ ofChar ':' :: rest := by
    rw [List.isPrefixOf_iff_prefix]
    constructor
    · rintro ⟨rest, same⟩
      exact ⟨rest, by rw [← same]; simp [py]⟩
    · rintro ⟨rest, same⟩
      exact ⟨rest, by rw [same]; simp [py]⟩
  have loops : LOOPBACK_ORIGINS.any (fun loopback =>
        low.lower origin = loopback || (loopback ++ py ":").isPrefixOf (low.lower origin)) = true ↔
      ∃ loopback ∈ LOOPBACK_ORIGINS, low.lower origin = loopback ∨
        ∃ rest, low.lower origin = loopback ++ ofChar ':' :: rest := by
    simp only [List.any_eq_true, Bool.or_eq_true, decide_eq_true_eq, starts]
  have listed : low.lower origin ∈ (allowedOrigins extra).map low.lower ↔
      Listed low extra origin := by
    simp only [List.mem_map, Listed, eq_comm]
  simp only [originValidation, http, ne_eq, not_true_eq_false, if_false, header]
  split
  · next loopback => exact iff_of_true rfl (.inl (loops.mp loopback))
  · next other =>
    split
    · next known => exact iff_of_true rfl (.inr (listed.mp known))
    · next unknown =>
      exact iff_of_false (by simp) (not_or.mpr ⟨mt loops.mpr other, mt listed.mpr unknown⟩)

/-- No loopback origin starts another. -/
theorem loopback_eq {a b x y : PyStr} (ha : a ∈ LOOPBACK_ORIGINS) (hb : b ∈ LOOPBACK_ORIGINS)
    (same : a ++ x = b ++ y) : a = b ∧ x = y := by
  have apart : ∀ a ∈ LOOPBACK_ORIGINS, ∀ b ∈ LOOPBACK_ORIGINS, a.take 8 = b.take 8 → a = b := by
    decide
  have long : ∀ a ∈ LOOPBACK_ORIGINS, 8 ≤ a.length := by decide
  have first := congrArg (List.take 8) same
  rw [List.take_append_of_le_length (long a ha), List.take_append_of_le_length (long b hb)] at first
  obtain rfl := apart a ha b hb first
  exact ⟨rfl, List.append_cancel_left same⟩

theorem exact_iff (http : scope.type = py "http") (header : scope.origin = some origin) :
    (originValidation low (allowedOrigins extra) scope = .forwarded ↔ Admitted low extra origin) ↔
      (Stray low origin → Listed low extra origin) := by
  rw [forwarded_iff http header]
  constructor
  · rintro exact ⟨loopback, known, rest, invalid, same⟩
    rcases exact.mp (.inl ⟨loopback, known, .inr ⟨rest, same⟩⟩) with listed | admitted
    · exact listed
    · obtain ⟨loopback', known', port, valid, same'⟩ := admitted
      obtain ⟨rfl, colon⟩ := loopback_eq known known' (same.symm.trans same')
      cases port with
      | none => cases colon
      | some p =>
        obtain rfl := (List.cons.inj colon).2
        cases invalid.symm.trans (valid rest rfl)
  · intro strays
    constructor
    · rintro (⟨loopback, known, same | ⟨rest, same⟩⟩ | listed)
      · refine .inr ⟨loopback, known, none, (fun p h => by cases h), ?_⟩
        rw [suffix, List.append_nil, same]
      · cases valid : isPort rest with
        | false => exact .inl (strays ⟨loopback, known, rest, valid, same⟩)
        | true =>
          refine .inr ⟨loopback, known, some rest, fun p h => ?_, same⟩
          rw [← Option.some.inj h, valid]
      · exact .inl listed
    · rintro (listed | ⟨loopback, known, port, _, same⟩)
      · exact .inr listed
      · cases port with
        | none => exact .inl ⟨loopback, known, .inl (by rw [same, suffix, List.append_nil])⟩
        | some p => exact .inl ⟨loopback, known, .inr ⟨p, same⟩⟩

end Forwarding

theorem accepted_of_extra {library : UrlLibrary} {raw : PyStr} {extra : List PyStr}
    (accepted : extraAllowedOrigins library raw = .ok extra) :
    ∀ entry ∈ extra, originProblem library entry = none := by
  obtain ⟨items, _, valid⟩ := Fallible.bind_eq_ok.mp accepted
  unfold validateOrigins at valid
  split at valid
  · cases valid
  · next none =>
    obtain rfl := Except.ok.inj valid
    intro entry mem
    have := List.findSome?_eq_none_iff.mp none entry mem
    exact Option.map_eq_none_iff.mp this

/-- The allowlist guards the endpoint as long as its entries are plain and no loopback origin
goes on behind its colon. -/
theorem guarded_iff {library : UrlLibrary} {low : Casing} {browser : Browser} {raw : PyStr}
    {extra : List PyStr} {scope : Scope} {origin : PyStr}
    (accepted : extraAllowedOrigins library raw = .ok extra) (http : scope.type = py "http")
    (header : scope.origin = some origin) :
    Guarded low.toLowering browser extra scope origin ↔
      (∀ entry ∈ extra, Plain library low.toLowering browser entry) ∧
        (Stray low.toLowering origin → Listed low.toLowering extra origin) := by
  have live := fun entry mem =>
    @live_iff_plain library low browser entry (accepted_of_extra accepted entry mem)
  rw [← exact_iff http header]
  constructor
  · intro guarded
    exact ⟨fun entry mem => (live entry mem).mp (guarded.live entry mem), guarded.exact⟩
  · rintro ⟨plain, exact⟩
    exact ⟨fun entry mem => (live entry mem).mpr (plain entry mem), exact⟩

def sampleLibrary : UrlLibrary where
  nfkc text := text
  checkBracketedNetloc _ := .error (py "Invalid IPv6 URL")
  repr text := py "'" ++ text ++ py "'"

theorem sample_lower_append (a : PyStr) (c : CodePoint) (b : PyStr) (ends : endsWord c = true) :
    lowerAscii (a ++ c :: b) = lowerAscii a ++ c :: lowerAscii b := by
  have unchanged : lowerAscii [c] = [c] := by
    apply lowerAscii_of_forall
    intro d mem
    rw [List.mem_singleton.mp mem]
    simp only [endsWord, isControlOrSpace, isDelimiter, Bool.or_eq_true, decide_eq_true_eq] at ends
    rcases ends with control | (rfl | rfl) | rfl
    · simp only [isUpper, Bool.and_eq_false_iff, decide_eq_false_iff_not]
      omega
    all_goals rfl
  have split : lowerAscii (c :: b) = lowerAscii [c] ++ lowerAscii b := rfl
  rw [unchanged] at split
  rw [lowerAscii, List.map_append]
  exact congrArg (_ ++ ·) split

def sampleCasing : Casing where
  lower := lowerAscii
  lower_ascii := lowerAscii_ascii
  lower_append := sample_lower_append

def isDomainChar (c : CodePoint) : Bool :=
  isLower c || isDigit c || c = ofChar '.' || c = ofChar '-'

def Domain (host : PyStr) : Prop := host ≠ [] ∧ host.all isDomainChar = true

theorem domain_chars (host : PyStr) (domain : Domain host) : ∀ c ∈ host, isHostChar c = true := by
  intro c mem
  have char := List.all_eq_true.mp domain.2 c mem
  simp only [isDomainChar, Bool.or_eq_true, decide_eq_true_eq] at char
  rcases char with (word | rfl) | rfl
  · exact isHostChar_of_word word
  · decide
  · decide

theorem domain_brackets (host : PyStr) (domain : Domain host) (colon : ofChar ':' ∈ host) :
    host.getLast? = some (ofChar ']') := by
  have := List.all_eq_true.mp domain.2 _ colon
  exact absurd this (by decide)

/-- A browser that goes to domains only. -/
def sampleBrowser : Browser where
  host := Domain
  chars := domain_chars
  brackets := domain_brackets

def headerBytes (text : String) : Bytes := text.toList.map (fun c => c.toNat.toUInt8)

def requestOf (origin : String) : Scope := ⟨py "http", [(originKey, headerBytes origin)]⟩

/-- An accepted entry that no `Origin` equals, and a host that only starts like loopback. -/
theorem bareQuestionMark_inert :
    extraAllowedOrigins sampleLibrary (py "https://journal.example.com?") =
        .ok [py "https://journal.example.com?"] ∧
      ¬ Live sampleCasing.toLowering sampleBrowser (py "https://journal.example.com?") ∧
      originValidation sampleCasing.toLowering
          (allowedOrigins [py "https://journal.example.com?"])
          (requestOf "http://localhost:80@evil.example") = .forwarded ∧
      ¬ Admitted sampleCasing.toLowering [py "https://journal.example.com?"]
        (py "http://localhost:80@evil.example") := by
  refine ⟨by decide +kernel, ?_, by decide +kernel, ?_⟩
  · intro live
    have question : ofChar '?' ∈ sampleCasing.lower (py "https://journal.example.com?") := by
      decide +kernel
    exact absurd (originChars (live_iff.mp live) _ question) (by decide)
  · have others : ∀ entry ∈ allowedOrigins [py "https://journal.example.com?"],
        sampleCasing.lower (py "http://localhost:80@evil.example") ≠ sampleCasing.lower entry := by
      decide +kernel
    have lower : sampleCasing.lower (py "http://localhost:80@evil.example") =
        py "http://localhost" ++ ofChar ':' :: py "80@evil.example" := by decide +kernel
    rintro (⟨entry, mem, same⟩ | ⟨loopback, known, port, valid, same⟩)
    · exact others entry mem same
    · obtain ⟨rfl, colon⟩ := loopback_eq (by decide) known (lower.symm.trans same)
      cases port with
      | none => cases colon
      | some p =>
        obtain rfl := (List.cons.inj colon).2
        exact absurd (valid _ rfl) (by decide)

def plainEntry : PyStr := py "https://journal.example.com:8443"

theorem plain_plainEntry :
    Plain sampleLibrary sampleCasing.toLowering sampleBrowser plainEntry := by
  have split : urlsplit sampleLibrary plainEntry =
      .ok ⟨py "https", py "journal.example.com:8443", [], [], []⟩ := by decide +kernel
  have written : plainEntry.all (fun c => !isUnsafe c && decide (c ≠ ofChar '?') &&
      decide (c ≠ ofChar '#')) = true := by decide +kernel
  have each : ∀ c ∈ plainEntry, (isUnsafe c = false ∧ c ≠ ofChar '?') ∧ c ≠ ofChar '#' := by
    simpa using written
  refine ⟨fun c mem => (each c mem).1.1, ?_, fun c mem => ⟨(each c mem).1.2, (each c mem).2⟩,
    ?_, ?_⟩
  · intro c first
    cases first
    rfl
  · intro parts read
    cases split.symm.trans read
    exact ⟨by decide +kernel, by decide +kernel⟩
  · intro parts read
    cases split.symm.trans read
    decide +kernel

/-- A plain entry and the page it is for. -/
theorem guarded_plain : Guarded sampleCasing.toLowering sampleBrowser [plainEntry]
    (requestOf "https://Journal.example.com:8443") (py "https://Journal.example.com:8443") := by
  have accepted : extraAllowedOrigins sampleLibrary (py " https://journal.example.com:8443,") =
      .ok [plainEntry] := by decide +kernel
  refine (guarded_iff accepted rfl (by decide +kernel)).mpr ⟨fun entry mem => ?_, fun _ => ?_⟩
  · cases List.mem_singleton.mp mem
    exact plain_plainEntry
  · exact ⟨plainEntry, by decide +kernel, by decide +kernel⟩

end Origins
