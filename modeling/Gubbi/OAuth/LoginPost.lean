import Gubbi.Library.Fallible
import Gubbi.Library.Splitting
import Gubbi.OAuth.AuthorizationCodes

/-!
# The login POST

One POST to `/login`, from the fields and the cookies of the request to its response and to
the rows that it stores. The texts of the form go to `compare_digest`, to SQLite, to bcrypt,
to the template, to the model of the authorization code and into the redirect, each of which
refuses some texts by an exception. The storage and the log do not fail.
-/

namespace LoginPost

open Text OAuthStorage
open LoginLimit (Event LOGIN_MAX_FAILURES LOGIN_LOCKOUT_WINDOW_SECS countEvents recordEvent
  loginFailure csrfMatches verifyPassword)
open AuthorizationCodes (AuthorizeForm newAuthorizationCode OAUTH_AUTH_CODE_TTL_SECS)

def CSRF_COOKIE_NAME : PyStr := py "_journal_csrf"

/-- `mapping.get(key, "")`, where the last of the values with one key counts. -/
def get (mapping : List (PyStr × PyStr)) (key : PyStr) : PyStr :=
  ((mapping.reverse.find? (fun field => field.1 = key)).map Prod.snd).getD []

/-- What a POST brings along, what the handler draws and when its statements run. A field
that is no text is the `str` of what was uploaded. -/
structure Post where
  clientHost : PyStr
  fields : List (PyStr × PyStr)
  cookies : List (PyStr × PyStr)
  csrfToken : PyStr
  code : PyStr
  countedAt : Micros
  failedAt : Micros
  verifiedAt : Micros

/-- The fields that the handler reads. -/
def Post.form (post : Post) : AuthorizeForm where
  clientHost := post.clientHost
  cookieCsrf := get post.cookies CSRF_COOKIE_NAME
  formCsrf := get post.fields (py "csrf_token")
  clientId := get post.fields (py "client_id")
  redirectUri := get post.fields (py "redirect_uri")
  password := get post.fields (py "password")
  state := get post.fields (py "state")
  codeChallenge := get post.fields (py "code_challenge")
  scope := get post.fields (py "scope")

/-- `clients` has the registered redirect URIs of each client. -/
structure State where
  events : List Event
  clients : Table PyStr (List PyStr)
  db : Db

structure LoginPage where
  clientId : PyStr
  redirectUri : PyStr
  state : PyStr
  codeChallenge : PyStr
  scope : PyStr
  csrfToken : PyStr
  cookieMaxAge : Secs
  error : PyStr
  secureCookies : Bool
  deriving DecidableEq

inductive Response
  | html (content : PyStr) (statusCode : Nat)
  | loginPage (page : LoginPage)
  /-- The CSRF cookie is deleted. -/
  | redirect (url : PyStr)
  deriving DecidableEq

def Response.statusCode : Response → Nat
  | .html _ statusCode => statusCode
  | .loginPage _ => 200
  | .redirect _ => 302

/-- What `create_login_handler` is given, and the functions of libraries that it calls.
`constructRedirectUri` gets the redirect URI, the code and the state. -/
structure Handler where
  checkpw : Bytes → Bytes → Except PyError Bool
  passwordHash : Bytes
  constructRedirectUri : PyStr → PyStr → PyStr → PyStr
  secureCookies : Bool

def encodes (text : PyStr) : Bool := (encodeUtf8 text).isSome

/-- The texts go where they have to be UTF-8. -/
def requireUtf8 (texts : List PyStr) : Except PyError Unit :=
  if texts.all encodes then .ok () else .error (.valueError "surrogates not allowed")

/-- The redirect URIs of `get_client`. -/
def getClient (s : State) (clientId : PyStr) : Except PyError (Option (List PyStr)) := do
  requireUtf8 [clientId]
  return s.clients.get clientId

/-- `render_login_page`; the page is encoded when the response is made. -/
def renderLoginPage (handler : Handler) (form : AuthorizeForm) (csrfToken : PyStr) :
    Except PyError Response := do
  requireUtf8 [form.clientId, form.redirectUri, form.state, form.codeChallenge, form.scope]
  return .loginPage ⟨form.clientId, form.redirectUri, form.state, form.codeChallenge, form.scope,
    csrfToken, OAUTH_AUTH_CODE_TTL_SECS, py "Invalid password", handler.secureCookies⟩

/-- The `AuthorizationCode`, whose texts are validated. -/
def makeAuthorizationCode (post : Post) : Except PyError AuthorizationCode := do
  let authCode := newAuthorizationCode post.code post.form post.verifiedAt
  requireUtf8 ([authCode.clientId, authCode.codeChallenge, authCode.redirectUri] ++ authCode.scopes)
  return authCode

/-- The redirect to the client; the state is quoted into its URL. -/
def redirectBack (handler : Handler) (post : Post) : Except PyError Response := do
  requireUtf8 [post.form.state]
  return .redirect (handler.constructRedirectUri post.form.redirectUri post.code post.form.state)

inductive Verdict
  | csrfFailed
  | invalidClient
  | invalidRedirectUri
  | wrongPassword
  | verified
  deriving DecidableEq

/-- From the lookup of the client to the password check. -/
def checkClient (handler : Handler) (s : State) (form : AuthorizeForm) :
    Except PyError Verdict := do
  match ← getClient s form.clientId with
  | none => return .invalidClient
  | some registeredUris =>
    if form.redirectUri ∉ registeredUris then return .invalidRedirectUri
    else if ← verifyPassword handler.checkpw handler.passwordHash form.toLoginForm then
      return .verified
    else return .wrongPassword

def checkForm (handler : Handler) (s : State) (form : AuthorizeForm) : Except PyError Verdict := do
  if ← csrfMatches form.toLoginForm then checkClient handler s form else return .csrfFailed

def lockedOut (s : State) (post : Post) : Bool :=
  countEvents s.events (loginFailure post.clientHost) LOGIN_LOCKOUT_WINDOW_SECS post.countedAt ≥
    LOGIN_MAX_FAILURES

/-- The POST branch of `login_handler`, with what it leaves in the storage. -/
def loginPost (handler : Handler) (s : State) (post : Post) : Except PyError Response × State :=
  if lockedOut s post then
    (.ok (.html (py "Too many failed attempts. Try again later.") 429), s)
  else
    match checkForm handler s post.form with
    | .error exc => (.error exc, s)
    | .ok .csrfFailed => (.ok (.html (py "CSRF validation failed") 403), s)
    | .ok .invalidClient => (.ok (.html (py "Invalid client") 400), s)
    | .ok .invalidRedirectUri => (.ok (.html (py "Invalid redirect_uri") 400), s)
    | .ok .wrongPassword =>
      (renderLoginPage handler post.form post.csrfToken,
        { s with events := recordEvent s.events (loginFailure post.clientHost) post.failedAt })
    | .ok .verified =>
      match makeAuthorizationCode post with
      | .error exc => (.error exc, s)
      | .ok authCode =>
        (redirectBack handler post, { s with db := saveAuthCode s.db post.code authCode })

/-- The tokens can be compared, if there are two. -/
def Comparable (form : AuthorizeForm) : Prop :=
  form.formCsrf ≠ [] → form.cookieCsrf ≠ [] →
    isAscii form.formCsrf = true ∧ isAscii form.cookieCsrf = true

/-- The client and the redirect URI of the form are registered. -/
def Registered (s : State) (form : AuthorizeForm) : Prop :=
  ∃ registeredUris, s.clients.get form.clientId = some registeredUris ∧
    form.redirectUri ∈ registeredUris

section Answers
variable (handler : Handler) (s : State) (post : Post)

/-- The password of the POST is checked. -/
structure Checked : Prop where
  unlocked : lockedOut s post = false
  csrf : post.form.formCsrf = post.form.cookieCsrf ∧ post.form.formCsrf ≠ []
  client : Registered s post.form

/-- It is checked and does not match. -/
def WrongGuess : Prop :=
  Checked s post ∧
    verifyPassword handler.checkpw handler.passwordHash post.form.toLoginForm = .ok false

def statusCodes : List Nat := [200, 302, 400, 403, 429]

/-- A response, a code for a redirect only, and an event for a wrong guess only. -/
structure Answered : Prop where
  response : ∃ response, (loginPost handler s post).1 = .ok response ∧
    response.statusCode ∈ statusCodes ∧
    (loginPost handler s post).2.db =
      if response.statusCode = 302 then
        saveAuthCode s.db post.code (newAuthorizationCode post.code post.form post.verifiedAt)
      else s.db
  recorded : WrongGuess handler s post → (loginPost handler s post).2.events =
    recordEvent s.events (loginFailure post.clientHost) post.failedAt
  unrecorded : ¬ WrongGuess handler s post → (loginPost handler s post).2.events = s.events

/-- Every text is one that the function it reaches takes. -/
structure Taken : Prop where
  csrf : lockedOut s post = false → Comparable post.form
  clientId : lockedOut s post = false → post.form.formCsrf = post.form.cookieCsrf →
    post.form.formCsrf ≠ [] → encodes post.form.clientId = true
  password : Checked s post → ∃ password, encodeUtf8 post.form.password = some password ∧
    ∃ matched, handler.checkpw password handler.passwordHash = .ok matched
  fields : Checked s post → ∀ text ∈ [post.form.redirectUri, post.form.state,
    post.form.codeChallenge, post.form.scope], encodes text = true

end Answers

section Cases
variable {handler : Handler} {s : State} {post : Post} {form : AuthorizeForm}

theorem requireUtf8_isOk {texts : List PyStr} :
    requireUtf8 texts = .ok () ↔ ∀ text ∈ texts, encodes text = true := by
  rw [← List.all_eq_true, requireUtf8]
  split
  · next all => exact iff_of_true rfl all
  · next some => exact iff_of_false (by simp) some

theorem requireUtf8_error {texts : List PyStr} {text : PyStr} (mem : text ∈ texts)
    (surrogate : encodes text = false) :
    requireUtf8 texts = .error (.valueError "surrogates not allowed") := by
  rw [requireUtf8, if_neg]
  intro all
  cases surrogate.symm.trans (List.all_eq_true.mp all text mem)

theorem csrfMatches_cases (form : AuthorizeForm) :
    (¬ Comparable form ∧ csrfMatches form.toLoginForm = .error .typeError) ∨
      (Comparable form ∧ csrfMatches form.toLoginForm =
        .ok (decide (form.formCsrf = form.cookieCsrf ∧ form.formCsrf ≠ []))) := by
  by_cases missing : form.formCsrf = [] ∨ form.cookieCsrf = []
  · refine .inr ⟨fun formCsrf cookieCsrf => absurd missing (not_or.mpr ⟨formCsrf, cookieCsrf⟩), ?_⟩
    have apart : ¬ (form.formCsrf = form.cookieCsrf ∧ form.formCsrf ≠ []) := by
      rintro ⟨same, given⟩
      rw [← same] at missing
      exact given (missing.elim id id)
    rw [csrfMatches, if_pos missing, decide_eq_false apart]
  · have given := not_or.mp missing
    rw [csrfMatches, if_neg missing, compareDigest]
    cases ascii : isAscii form.formCsrf && isAscii form.cookieCsrf with
    | false =>
      refine .inl ⟨fun comparable => ?_, rfl⟩
      have both := comparable given.1 given.2
      rw [both.1, both.2] at ascii
      cases ascii
    | true =>
      refine .inr ⟨fun _ _ => Bool.and_eq_true_iff.mp ascii, ?_⟩
      simp [given.1]

theorem requireUtf8_of_encodes {text : PyStr} (encoded : encodes text = true) :
    requireUtf8 [text] = .ok () :=
  requireUtf8_isOk.mpr fun other mem => by rw [List.mem_singleton.mp mem, encoded]

theorem getClient_of_encodes {clientId : PyStr} (encoded : encodes clientId = true) :
    getClient s clientId = .ok (s.clients.get clientId) := by
  simp only [getClient, requireUtf8_of_encodes encoded]
  rfl

theorem checkClient_cases (handler : Handler) (s : State) (form : AuthorizeForm) :
    (encodes form.clientId = false ∧ ∃ exc, checkClient handler s form = .error exc) ∨
      (encodes form.clientId = true ∧ ¬ Registered s form ∧
        (checkClient handler s form = .ok .invalidClient ∨
          checkClient handler s form = .ok .invalidRedirectUri)) ∨
      (encodes form.clientId = true ∧ Registered s form ∧ checkClient handler s form =
        (verifyPassword handler.checkpw handler.passwordHash form.toLoginForm).map
          (fun matched => if matched then .verified else .wrongPassword)) := by
  cases encoded : encodes form.clientId with
  | false =>
    have raised := requireUtf8_error (List.mem_singleton_self form.clientId) encoded
    refine .inl ⟨rfl, .valueError "surrogates not allowed", ?_⟩
    simp only [checkClient, getClient, raised]
    rfl
  | true =>
    refine .inr ?_
    unfold checkClient Registered
    rw [getClient_of_encodes encoded]
    cases found : s.clients.get form.clientId with
    | none => exact .inl ⟨rfl, (fun ⟨_, known, _⟩ => by cases known), .inl rfl⟩
    | some registeredUris =>
      by_cases known : form.redirectUri ∈ registeredUris
      · refine .inr ⟨rfl, ⟨registeredUris, rfl, known⟩, ?_⟩
        simp only [bind, Except.bind, known, not_true_eq_false, if_false]
        cases verifyPassword handler.checkpw handler.passwordHash form.toLoginForm with
        | error exc => rfl
        | ok matched => cases matched <;> rfl
      · refine .inl ⟨rfl, ?_, .inr ?_⟩
        · rintro ⟨others, same, mem⟩
          obtain rfl := Option.some.inj same
          exact known mem
        · simp only [bind, Except.bind, known, not_false_eq_true, if_true]
          rfl

/-- A refusal before the password check. -/
theorem answered_of_refused {content : PyStr} {statusCode : Nat}
    (ran : loginPost handler s post = (.ok (.html content statusCode), s))
    (status : statusCode ∈ statusCodes) (other : statusCode ≠ 302) (unchecked : ¬ Checked s post) :
    Answered handler s post := by
  have innocent : ¬ WrongGuess handler s post := fun wrong => unchecked wrong.1
  refine ⟨⟨.html content statusCode, by rw [ran], status, ?_⟩, fun wrong => absurd wrong innocent,
    fun _ => by rw [ran]⟩
  rw [ran]
  exact (if_neg other).symm

theorem not_answered_of_raised {exc : PyError}
    (raised : (loginPost handler s post).1 = .error exc) :
    ¬ Answered handler s post := by
  intro answered
  obtain ⟨_, ran, _⟩ := answered.response
  cases raised.symm.trans ran

theorem taken_of_not_checked (csrf : lockedOut s post = false → Comparable post.form)
    (clientId : lockedOut s post = false → post.form.formCsrf = post.form.cookieCsrf →
      post.form.formCsrf ≠ [] → encodes post.form.clientId = true)
    (unchecked : ¬ Checked s post) : Taken handler s post :=
  ⟨csrf, clientId, fun checked => absurd checked unchecked,
    fun checked => absurd checked unchecked⟩

theorem verifyPassword_isOk {matched : Bool} :
    verifyPassword handler.checkpw handler.passwordHash form.toLoginForm = .ok matched ↔
      ∃ password, encodeUtf8 form.password = some password ∧
        handler.checkpw password handler.passwordHash = .ok matched := by
  unfold verifyPassword
  cases encodeUtf8 form.password with
  | none => exact iff_of_false (by simp) (by simp)
  | some password => simp

theorem encodes_iff {text : PyStr} : encodes text = true ↔ ∀ c ∈ text, (toChar c).isSome = true :=
  encodeUtf8_isSome

/-- The words of a text are UTF-8 if the text is: what is left out is blank. -/
theorem encodes_splitSpaces {text : PyStr} :
    (∀ word ∈ AuthorizationCodes.splitSpaces text, encodes word = true) ↔ encodes text = true := by
  simp only [encodes_iff, AuthorizationCodes.splitSpaces, List.mem_filter, decide_eq_true_eq]
  constructor
  · intro words c mem
    cases blank : isSpace c with
    | true => exact (toChar_of_isSpace blank).1
    | false =>
      obtain ⟨word, found, within⟩ := Splitting.mem_splitOnP.mpr ⟨mem, blank⟩
      exact words word ⟨found, List.ne_nil_of_mem within⟩ c within
  · intro whole word found c within
    exact whole c (Splitting.mem_splitOnP.mp ⟨word, found.1, within⟩).1

/-- The texts that the page, the code and the redirect are made of. -/
def FieldsEncode (form : AuthorizeForm) : Prop :=
  ∀ text ∈ [form.redirectUri, form.state, form.codeChallenge, form.scope], encodes text = true

theorem fieldsEncode_iff : FieldsEncode form ↔ encodes form.redirectUri = true ∧
    encodes form.state = true ∧ encodes form.codeChallenge = true ∧ encodes form.scope = true := by
  simp [FieldsEncode]

theorem renderLoginPage_isOk (clientId : encodes form.clientId = true) {csrfToken : PyStr} :
    (∃ page, renderLoginPage handler form csrfToken = .ok (.loginPage page)) ↔
      FieldsEncode form := by
  have taken : requireUtf8 [form.clientId, form.redirectUri, form.state, form.codeChallenge,
      form.scope] = .ok () ↔ FieldsEncode form := by
    rw [requireUtf8_isOk, fieldsEncode_iff]
    simp [clientId]
  rw [← taken, renderLoginPage]
  cases requireUtf8 [form.clientId, form.redirectUri, form.state, form.codeChallenge,
      form.scope] with
  | error exc => exact iff_of_false (fun ⟨_, h⟩ => by cases h) (by simp)
  | ok done => exact iff_of_true ⟨_, rfl⟩ rfl

theorem makeAuthorizationCode_eq_ok (clientId : encodes post.form.clientId = true)
    {authCode : AuthorizationCode} :
    makeAuthorizationCode post = .ok authCode ↔
      (encodes post.form.codeChallenge = true ∧ encodes post.form.redirectUri = true ∧
        encodes post.form.scope = true) ∧
      authCode = newAuthorizationCode post.code post.form post.verifiedAt := by
  have taken : requireUtf8 ([post.form.clientId, post.form.codeChallenge, post.form.redirectUri] ++
        (newAuthorizationCode post.code post.form post.verifiedAt).scopes) = .ok () ↔
      encodes post.form.codeChallenge = true ∧ encodes post.form.redirectUri = true ∧
        encodes post.form.scope = true := by
    rw [requireUtf8_isOk, List.forall_mem_append, AuthorizationCodes.newAuthorizationCode_scopes,
      encodes_splitSpaces]
    simp [clientId, and_assoc]
  rw [← taken]
  unfold makeAuthorizationCode
  dsimp only
  change (requireUtf8 ([post.form.clientId, post.form.codeChallenge, post.form.redirectUri] ++
    (newAuthorizationCode post.code post.form post.verifiedAt).scopes) >>= fun _ => _) = _ ↔ _
  cases requireUtf8 ([post.form.clientId, post.form.codeChallenge, post.form.redirectUri] ++
      (newAuthorizationCode post.code post.form post.verifiedAt).scopes) with
  | error exc => exact iff_of_false (fun h => by cases h) fun ⟨h, _⟩ => by cases h
  | ok done =>
    constructor
    · intro h
      exact ⟨rfl, (Except.ok.inj h).symm⟩
    · rintro ⟨_, rfl⟩
      rfl

theorem redirectBack_cases (handler : Handler) (post : Post) :
    (encodes post.form.state = true ∧ ∃ url, redirectBack handler post = .ok (.redirect url)) ∨
      (encodes post.form.state = false ∧ ∃ exc, redirectBack handler post = .error exc) := by
  cases encoded : encodes post.form.state with
  | true =>
    refine .inl ⟨rfl, handler.constructRedirectUri post.form.redirectUri post.code
      post.form.state, ?_⟩
    simp only [redirectBack, requireUtf8_of_encodes encoded]
    rfl
  | false =>
    have raised := requireUtf8_error (List.mem_singleton_self post.form.state) encoded
    refine .inr ⟨rfl, .valueError "surrogates not allowed", ?_⟩
    simp only [redirectBack, raised]
    rfl

/-- A wrong password is answered by the page, if the page can be made. -/
theorem answered_of_wrong (checked : Checked s post) (clientId : encodes post.form.clientId = true)
    (wrong : verifyPassword handler.checkpw handler.passwordHash post.form.toLoginForm = .ok false)
    (verdict : checkForm handler s post.form = .ok .wrongPassword) :
    Answered handler s post ↔ FieldsEncode post.form := by
  have ran : loginPost handler s post =
      (renderLoginPage handler post.form post.csrfToken,
        { s with
          events := recordEvent s.events (loginFailure post.clientHost) post.failedAt }) := by
    simp [loginPost, checked.unlocked, verdict]
  rw [← @renderLoginPage_isOk handler _ clientId post.csrfToken]
  constructor
  · intro answered
    obtain ⟨response, returned, _⟩ := answered.response
    rw [ran] at returned
    obtain ⟨_, _, same⟩ := Fallible.bind_eq_ok.mp returned
    exact ⟨_, returned.trans (congrArg _ (Except.ok.inj same).symm)⟩
  · rintro ⟨page, rendered⟩
    refine ⟨⟨.loginPage page, by rw [ran, rendered], (by decide : 200 ∈ statusCodes), ?_⟩,
      fun _ => by rw [ran], ?_⟩
    · rw [ran]
      rfl
    · exact fun innocent => absurd ⟨checked, wrong⟩ innocent

/-- A verified login stores its code and is redirected, if both can be made. -/
theorem answered_of_verified (checked : Checked s post)
    (clientId : encodes post.form.clientId = true)
    (right : verifyPassword handler.checkpw handler.passwordHash post.form.toLoginForm = .ok true)
    (verdict : checkForm handler s post.form = .ok .verified) :
    Answered handler s post ↔ FieldsEncode post.form := by
  have innocent : ¬ WrongGuess handler s post := fun wrong => by cases right.symm.trans wrong.2
  rw [fieldsEncode_iff]
  cases made : makeAuthorizationCode post with
  | error exc =>
    have ran : (loginPost handler s post).1 = .error exc := by
      simp [loginPost, checked.unlocked, verdict, made]
    refine iff_of_false (not_answered_of_raised ran) fun ⟨redirectUri, _, challenge, scope⟩ => ?_
    have := (makeAuthorizationCode_eq_ok clientId).mpr ⟨⟨challenge, redirectUri, scope⟩, rfl⟩
    cases made.symm.trans this
  | ok authCode =>
    obtain ⟨⟨challenge, redirectUri, scope⟩, rfl⟩ := (makeAuthorizationCode_eq_ok clientId).mp made
    have ran : loginPost handler s post = (redirectBack handler post, { s with
        db := saveAuthCode s.db post.code
          (newAuthorizationCode post.code post.form post.verifiedAt) }) := by
      simp [loginPost, checked.unlocked, verdict, made]
    rcases redirectBack_cases handler post with ⟨state, url, returned⟩ | ⟨state, exc, raised⟩
    · refine iff_of_true
        ⟨⟨.redirect url, by rw [ran, returned], (by decide : 302 ∈ statusCodes), ?_⟩,
          fun wrong => absurd wrong innocent, fun _ => by rw [ran]⟩
        ⟨redirectUri, state, challenge, scope⟩
      rw [ran]
      rfl
    · refine iff_of_false (not_answered_of_raised (by rw [ran, raised])) fun ⟨_, state', _⟩ => ?_
      cases state.symm.trans state'

theorem raised_of_checkForm (unlocked : lockedOut s post = false) {exc : PyError}
    (raised : checkForm handler s post.form = .error exc) :
    (loginPost handler s post).1 = .error exc := by
  simp [loginPost, unlocked, raised]

/-- From the password check on. -/
theorem answered_of_checked (checked : Checked s post) (comparable : Comparable post.form)
    (clientId : encodes post.form.clientId = true)
    (verdict : checkForm handler s post.form =
      (verifyPassword handler.checkpw handler.passwordHash post.form.toLoginForm).map
        (fun matched => if matched then .verified else .wrongPassword)) :
    Answered handler s post ↔ Taken handler s post := by
  have fieldsOf (taken : Taken handler s post) : FieldsEncode post.form := taken.fields checked
  have takenOf {matched : Bool}
      (compared : verifyPassword handler.checkpw handler.passwordHash post.form.toLoginForm =
        .ok matched) (fields : FieldsEncode post.form) : Taken handler s post := by
    obtain ⟨password, encoded, same⟩ := verifyPassword_isOk.mp compared
    exact ⟨fun _ => comparable, fun _ _ _ => clientId, fun _ => ⟨password, encoded, matched, same⟩,
      fun _ => fields⟩
  cases compared : verifyPassword handler.checkpw handler.passwordHash post.form.toLoginForm with
  | error exc =>
    rw [compared] at verdict
    refine iff_of_false (not_answered_of_raised (raised_of_checkForm checked.unlocked verdict))
      fun taken => ?_
    obtain ⟨password, encoded, matched, same⟩ := taken.password checked
    cases compared.symm.trans (verifyPassword_isOk.mpr ⟨password, encoded, same⟩)
  | ok matched =>
    rw [compared] at verdict
    cases matched with
    | true =>
      rw [answered_of_verified checked clientId compared verdict]
      exact ⟨takenOf compared, fieldsOf⟩
    | false =>
      rw [answered_of_wrong checked clientId compared verdict]
      exact ⟨takenOf compared, fieldsOf⟩

/-- A POST is answered, and its guess is counted, exactly when each of its texts is taken by
the functions that it reaches. -/
theorem answered_iff (handler : Handler) (s : State) (post : Post) :
    Answered handler s post ↔ Taken handler s post := by
  cases unlocked : lockedOut s post with
  | true =>
    have ran : loginPost handler s post =
        (.ok (.html (py "Too many failed attempts. Try again later.") 429), s) := if_pos unlocked
    have unchecked : ¬ Checked s post :=
      fun checked => by cases unlocked.symm.trans checked.unlocked
    refine iff_of_true (answered_of_refused ran (by decide) (by decide) unchecked)
      (taken_of_not_checked (fun free => ?_) (fun free => ?_) unchecked)
    · cases unlocked.symm.trans free
    · cases unlocked.symm.trans free
  | false =>
    rcases csrfMatches_cases post.form with ⟨incomparable, raised⟩ | ⟨comparable, compared⟩
    · have raised' : checkForm handler s post.form = .error .typeError := by
        simp only [checkForm, raised]
        rfl
      exact iff_of_false (not_answered_of_raised (raised_of_checkForm unlocked raised'))
        fun taken => incomparable (taken.csrf unlocked)
    · by_cases same : post.form.formCsrf = post.form.cookieCsrf ∧ post.form.formCsrf ≠ []
      · have verdict : checkForm handler s post.form = checkClient handler s post.form := by
          simp only [checkForm, compared, decide_eq_true same]
          rfl
        rcases checkClient_cases handler s post.form with ⟨surrogate, exc, raised⟩ |
          ⟨clientId, unregistered, refused⟩ | ⟨clientId, registered, checks⟩
        · refine iff_of_false (not_answered_of_raised
            (raised_of_checkForm unlocked (verdict.trans raised))) fun taken => ?_
          cases surrogate.symm.trans (taken.clientId unlocked same.1 same.2)
        · have unchecked : ¬ Checked s post := fun checked => unregistered checked.client
          have taken := @taken_of_not_checked handler s post (fun _ => comparable)
            (fun _ _ _ => clientId) unchecked
          rcases refused with refused | refused
          · have ran : loginPost handler s post = (.ok (.html (py "Invalid client") 400), s) := by
              simp [loginPost, unlocked, verdict, refused]
            exact iff_of_true (answered_of_refused ran (by decide) (by decide) unchecked) taken
          · have ran : loginPost handler s post =
                (.ok (.html (py "Invalid redirect_uri") 400), s) := by
              simp [loginPost, unlocked, verdict, refused]
            exact iff_of_true (answered_of_refused ran (by decide) (by decide) unchecked) taken
        · exact answered_of_checked ⟨unlocked, same, registered⟩ comparable clientId
            (verdict.trans checks)
      · have ran : loginPost handler s post =
            (.ok (.html (py "CSRF validation failed") 403), s) := by
          have verdict : checkForm handler s post.form = .ok .csrfFailed := by
            simp only [checkForm, compared, decide_eq_false same]
            rfl
          simp [loginPost, unlocked, verdict]
        have unchecked : ¬ Checked s post := fun checked => same checked.csrf
        exact iff_of_true (answered_of_refused ran (by decide) (by decide) unchecked)
          (taken_of_not_checked (fun _ => comparable)
            (fun _ equal given => absurd ⟨equal, given⟩ same) unchecked)

/-- What the checks come to in a run of the lockout. -/
def phaseOf (form : AuthorizeForm) : Except PyError Verdict → LoginLimit.Phase
  | .error exc => .answered (.raised exc)
  | .ok .csrfFailed => .answered LoginLimit.csrfFailed
  | .ok .invalidClient => .answered LoginLimit.invalidClient
  | .ok .invalidRedirectUri => .answered LoginLimit.invalidRedirectUri
  | .ok .wrongPassword => .failed
  | .ok .verified => .answered (.redirect form.redirectUri)

/-- The runs of the lockout take these checks, with the client already looked up. -/
theorem verify_eq_phaseOf (clientId : encodes form.clientId = true) :
    LoginLimit.verify handler.checkpw handler.passwordHash form.toLoginForm
      (s.clients.get form.clientId) = phaseOf form (checkForm handler s form) := by
  unfold LoginLimit.verify checkForm checkClient
  rw [getClient_of_encodes clientId]
  cases csrfMatches form.toLoginForm with
  | error exc => rfl
  | ok matched =>
    cases matched with
    | false => rfl
    | true =>
      cases s.clients.get form.clientId with
      | none => rfl
      | some registeredUris =>
        simp only [bind, Except.bind, if_true]
        split
        · rfl
        · cases verifyPassword handler.checkpw handler.passwordHash form.toLoginForm with
          | error exc => rfl
          | ok right => cases right <;> rfl

end Cases

/-- Like bcrypt, it takes no more than 72 bytes. -/
def sampleCheckpw (password passwordHash : Bytes) : Except PyError Bool :=
  if 72 < password.length then .error (.valueError "password cannot be longer than 72 bytes")
  else .ok (password = passwordHash)

def sampleHandler : Handler where
  checkpw := sampleCheckpw
  passwordHash := [0x68, 0x75, 0x6e, 0x74, 0x65, 0x72, 0x32]
  constructRedirectUri redirectUri code state :=
    redirectUri ++ py "?code=" ++ code ++ py "&state=" ++ state
  secureCookies := true

def sampleState : State where
  events := []
  clients := Table.empty.put (py "c1") [py "https://claude.ai/callback"]
  db := emptyDb

def samplePost (token password : PyStr) : Post where
  clientHost := py "203.0.113.7"
  fields := [(py "csrf_token", token), (py "client_id", py "c1"),
    (py "redirect_uri", py "https://claude.ai/callback"), (py "password", password)]
  cookies := [(CSRF_COOKIE_NAME, token)]
  csrfToken := py "t2"
  code := py "code"
  countedAt := 0
  failedAt := 1000000
  verifiedAt := 1000000

/-- A token that is not ASCII, and a password of 73 bytes, which is no guess that counts. -/
theorem longPassword_raises :
    (loginPost sampleHandler sampleState (samplePost (py "é") (py "hunter2"))).1 =
        .error .typeError ∧
      (loginPost sampleHandler sampleState (samplePost (py "t1") (List.replicate 73 0x61))).1 =
        .error (.valueError "password cannot be longer than 72 bytes") ∧
      (loginPost sampleHandler sampleState
        (samplePost (py "t1") (List.replicate 73 0x61))).2.events = [] ∧
      ¬ Answered sampleHandler sampleState (samplePost (py "t1") (List.replicate 73 0x61)) := by
  have raised : (loginPost sampleHandler sampleState
        (samplePost (py "t1") (List.replicate 73 0x61))).1 =
      .error (.valueError "password cannot be longer than 72 bytes") := by decide +kernel
  exact ⟨by decide +kernel, raised, by decide +kernel, not_answered_of_raised raised⟩

end LoginPost
