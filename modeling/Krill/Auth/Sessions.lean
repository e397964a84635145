import Krill.Data.HashMap
import Krill.Data.Text

namespace Krill.Auth

/-! Login sessions of users from the config file. The session is in the token itself,
encrypted by the server, and a cache spares decrypting it for every request. -/

inductive AuthError where
  | custom (message : String)
  | apiInvalidCredentials (message : String)

abbrev Attributes := HashMap String String

structure ClientSession where
  startTime : Nat
  expiresIn : Option Nat
  id : String
  attributes : Attributes
  secrets : Attributes
  deriving DecidableEq

structure CachedSession where
  evictAfter : Nat
  session : ClientSession

/-- What other libraries supply: encodings, encryption and password hashes. -/
structure Library where
  Token : Type
  Bytes : Type
  Key : Type
  Nonce : Type
  [decEqToken : DecidableEq Token]
  base64Encode : Bytes → Token
  base64Decode : Token → Option Bytes
  toJson : ClientSession → Option Bytes
  fromJson : Bytes → Option ClientSession
  encrypt : Key → Bytes → Nonce → Except AuthError Bytes
  decrypt : Key → Bytes → Except AuthError Bytes
  scrypt : String → String → String

variable {library : Library}

instance : DecidableEq library.Token := library.decEqToken

structure Library.Inverts (library : Library) : Prop where
  base64 : ∀ bytes, library.base64Decode (library.base64Encode bytes) = some bytes
  json : ∀ {session bytes}, library.toJson session = some bytes →
    library.fromJson bytes = some session
  cipher : ∀ {key bytes nonce encrypted}, library.encrypt key bytes nonce = .ok encrypted →
    library.decrypt key encrypted = .ok bytes

/-- Sessions are data that can be written and encrypted. -/
structure Library.Encodes (library : Library) : Prop where
  json : ∀ session, ∃ bytes, library.toJson session = some bytes
  cipher : ∀ key bytes nonce, ∃ encrypted, library.encrypt key bytes nonce = .ok encrypted

abbrev SessionCache (library : Library) := HashMap library.Token CachedSession

structure UserDetails where
  passwordHash : String
  salt : String
  attributes : Attributes

structure LoggedInUser (library : Library) where
  token : library.Token
  id : String
  attributes : Attributes

structure ActorDef where
  name : String
  attributes : Attributes

structure ConfigFileAuthProvider (library : Library) where
  users : HashMap String UserDetails
  sessionKey : library.Key
  fakePasswordHash : String
  fakeSalt : String
  ttlSecs : Nat

inductive Event (library : Library) where
  | login (auth : Option (String × String)) (nonce : library.Nonce)
  | authenticate (token : Option library.Token)
  | logout (token : Option library.Token)
  | sweep

namespace ConfigFileAuthProvider

variable (self : ConfigFileAuthProvider library) (cache : SessionCache library) (now : Nat)

def cacheSession (token : library.Token) (session : ClientSession) : SessionCache library :=
  cache.insert token { evictAfter := now + self.ttlSecs, session }

def orInvalid {α : Type} : Option α → Except AuthError α
  | some value => .ok value
  | none => .error (.apiInvalidCredentials "Invalid bearer token")

def readToken (token : library.Token) : Except AuthError ClientSession := do
  let bytes ← orInvalid (library.base64Decode token)
  let unencryptedBytes ← library.decrypt self.sessionKey bytes
  orInvalid (library.fromJson unencryptedBytes)

def decode (token : library.Token) (addToCache : Bool) :
    Except AuthError ClientSession × SessionCache library :=
  match cache.get token with
  | some item => (.ok item.session, cache)
  | none =>
    match self.readToken token with
    | .error failure => (.error failure, cache)
    | .ok session =>
      (.ok session, if addToCache then self.cacheSession cache now token session else cache)

def makeToken (session : ClientSession) (nonce : library.Nonce) :
    Except AuthError library.Token := do
  match library.toJson session with
  | none => .error (.custom "Error while serializing session data")
  | some bytes =>
    let encrypted ← library.encrypt self.sessionKey bytes nonce
    return library.base64Encode encrypted

def encode (id : String) (attributes secrets : Attributes) (expiresIn : Option Nat)
    (nonce : library.Nonce) : Except AuthError library.Token × SessionCache library :=
  let session := { startTime := now, expiresIn, id, attributes, secrets }
  match self.makeToken session nonce with
  | .error failure => (.error failure, cache)
  | .ok token => (.ok token, self.cacheSession cache now token session)

def authenticate (token : Option library.Token) :
    Except AuthError (Option ActorDef) × SessionCache library :=
  match token with
  | none => (.ok none, cache)
  | some token =>
    let (session, cache) := self.decode cache now token true
    (session.map fun session => some ⟨session.id, session.attributes⟩, cache)

/-- An unknown user takes the same way, with a fake hash, until the password is checked. -/
def login (auth : Option (String × String)) (nonce : library.Nonce) :
    Except AuthError (LoggedInUser library) × SessionCache library :=
  match auth with
  | none => (.error (.apiInvalidCredentials "Missing credentials"), cache)
  | some (id, passwordHash) =>
    let (userPasswordHash, userSalt) := match self.users.get id with
      | some user => (user.passwordHash, user.salt)
      | none => (self.fakePasswordHash, self.fakeSalt)
    if library.scrypt passwordHash userSalt = userPasswordHash then
      match self.users.get id with
      | some user =>
        let (apiToken, cache) := self.encode cache now id user.attributes .empty none nonce
        (apiToken.map fun token => { token, id, attributes := user.attributes }, cache)
      | none => (.error (.apiInvalidCredentials "Incorrect credentials"), cache)
    else (.error (.apiInvalidCredentials "Incorrect credentials"), cache)

def logout (token : Option library.Token) : SessionCache library :=
  match token with
  | some token => (self.authenticate (cache.remove token) now (some token)).2
  | none => cache

def sweep : SessionCache library :=
  cache.filter fun _ item => item.evictAfter > now

def handle : Event library → SessionCache library
  | .login auth nonce => (self.login cache now auth nonce).2
  | .authenticate token => (self.authenticate cache now token).2
  | .logout token => self.logout cache now token
  | .sweep => sweep cache now

/-- The events of a history come with the time at which each is handled. -/
def handleAll (history : List (Nat × Event library)) : SessionCache library :=
  history.foldl (fun cache (now, event) => self.handle cache now event) cache

variable {self cache now}

theorem readToken_of_makeToken (inverts : library.Inverts)
    (made : self.makeToken session nonce = .ok token) : self.readToken token = .ok session := by
  unfold makeToken at made
  cases written : library.toJson session with
  | none => simp [written] at made
  | some bytes =>
    simp only [written] at made
    cases hidden : library.encrypt self.sessionKey bytes nonce with
    | error failure => simp [hidden, bind, Except.bind] at made
    | ok encrypted =>
      simp only [hidden, bind, Except.bind, pure, Except.pure, Except.ok.injEq] at made
      subst made
      simp [readToken, inverts.base64, inverts.cipher hidden, inverts.json written, orInvalid,
        bind, Except.bind]

/-- What is in the cache for a token can be read from the token itself. -/
def Reflects (self : ConfigFileAuthProvider library) (cache : SessionCache library)
    (token : library.Token) : Prop :=
  ∀ ⦃item⦄, cache.get token = some item → self.readToken token = .ok item.session

theorem Reflects.cacheSession (reflects : self.Reflects cache token)
    (readable : self.readToken other = .ok session) :
    self.Reflects (self.cacheSession cache now other session) token := by
  intro item found
  rcases HashMap.get_insert_eq_some found with ⟨rfl, rfl⟩ | earlier
  · exact readable
  · exact reflects earlier

theorem Reflects.authenticate (reflects : self.Reflects cache token) :
    self.Reflects (self.authenticate cache now other).2 token := by
  cases other with
  | none => exact reflects
  | some other =>
    change self.Reflects (self.decode cache now other true).2 token
    unfold decode
    split
    · exact reflects
    · split
      · exact reflects
      · next readable => exact reflects.cacheSession readable

theorem Reflects.login (inverts : library.Inverts) (reflects : self.Reflects cache token) :
    self.Reflects (self.login cache now auth nonce).2 token := by
  unfold ConfigFileAuthProvider.login
  split
  · exact reflects
  · next id _ =>
    cases self.users.get id with
    | none =>
      dsimp only
      split <;> exact reflects
    | some user =>
      dsimp only
      split
      · unfold encode
        dsimp only
        split
        · exact reflects
        · next made => exact reflects.cacheSession (readToken_of_makeToken inverts made)
      · exact reflects

theorem Reflects.handle (inverts : library.Inverts) (reflects : self.Reflects cache token) :
    self.Reflects (self.handle cache now event) token := by
  cases event with
  | login auth nonce => exact reflects.login inverts
  | authenticate other => exact reflects.authenticate
  | logout other =>
    cases other with
    | none => exact reflects
    | some other => exact authenticate fun _ found => reflects (HashMap.get_of_remove found)
  | sweep =>
    intro item found
    rw [ConfigFileAuthProvider.handle, sweep, HashMap.get_filter] at found
    exact reflects (Option.eq_some_of_filter_eq_some found)

theorem Reflects.handleAll (inverts : library.Inverts) (history : List (Nat × Event library))
    (reflects : self.Reflects cache token) :
    self.Reflects (self.handleAll cache history) token := by
  induction history generalizing cache with
  | nil => exact reflects
  | cons first rest induction => exact induction (reflects.handle inverts)

theorem get_handleAll (inverts : library.Inverts)
    (unreadable : ∀ session, self.readToken token ≠ .ok session)
    (history : List (Nat × Event library)) (absent : cache.get token = none) :
    (self.handleAll cache history).get token = none := by
  have reflects : self.Reflects cache token := fun item found => by cases absent.symm.trans found
  cases found : (self.handleAll cache history).get token with
  | none => rfl
  | some item => exact absurd (reflects.handleAll inverts history found) (unreadable _)

theorem decode_history (inverts : library.Inverts) (history : List (Nat × Event library))
    (token : library.Token) :
    (self.decode (self.handleAll .empty history) now token true).1 = self.readToken token := by
  have reflects : self.Reflects (self.handleAll .empty history) token :=
    .handleAll inverts history nofun
  unfold decode
  cases found : (self.handleAll .empty history).get token with
  | some item => exact (reflects found).symm
  | none => cases self.readToken token <;> rfl

/-- Whatever happened before, a request is answered as without a cache. -/
theorem authenticate_without_cache (inverts : library.Inverts)
    (self : ConfigFileAuthProvider library) (history : List (Nat × Event library)) (now : Nat)
    (token : Option library.Token) :
    (self.authenticate (self.handleAll .empty history) now token).1 =
      (self.authenticate .empty now token).1 := by
  cases token with
  | none => rfl
  | some token =>
    exact congrArg (Except.map _)
      ((decode_history inverts history token).trans (decode_history inverts [] token).symm)

theorem login_eq_ok (done : (self.login cache now auth nonce).1 = .ok user) :
    self.makeToken ⟨now, none, user.id, user.attributes, .empty⟩ nonce = .ok user.token := by
  unfold login at done
  split at done
  · cases done
  · next id _ =>
    cases known : self.users.get id with
    | none =>
      simp only [known] at done
      split at done <;> cases done
    | some details =>
      simp only [known] at done
      split at done
      · unfold encode at done
        dsimp only at done
        split at done
        · cases done
        · next made =>
          cases done
          exact made
      · cases done

/-- A login is good for ever. No logout, no sweep and no restart of the server, which
forgets the cache, ends it. -/
theorem login_lasts (inverts : library.Inverts)
    (done : (self.login cache now auth nonce).1 = .ok user)
    (history : List (Nat × Event library)) (later : Nat) :
    (self.authenticate (self.handleAll .empty history) later (some user.token)).1 =
      .ok (some ⟨user.id, user.attributes⟩) := by
  have readable := readToken_of_makeToken inverts (login_eq_ok done)
  exact congrArg (Except.map _) ((decode_history inverts history user.token).trans readable)

theorem decode_removed (cache : SessionCache library) (now : Nat) (token : library.Token) :
    (self.decode (cache.remove token) now token true).2.get token =
      match self.readToken token with
      | .error _ => none
      | .ok session => some { evictAfter := now + self.ttlSecs, session } := by
  rw [decode, HashMap.get_remove_self]
  dsimp only
  split
  · exact HashMap.get_remove_self ..
  · exact HashMap.get_insert_self ..

/-- A logout ends the session of a token just if the token has none: it takes the session
from the cache, but reads it again from the token to tell who has logged out. -/
theorem logout_ends_session_iff (inverts : library.Inverts)
    (self : ConfigFileAuthProvider library) (before : List (Nat × Event library)) (now : Nat)
    (token : library.Token) :
    (∀ later, let cache := self.handleAll (self.logout (self.handleAll .empty before) now
        (some token)) later
      cache.get token = none ∧
        ∀ now actor, (self.authenticate cache now (some token)).1 ≠ .ok (some actor)) ↔
      ∀ session, self.readToken token ≠ .ok session := by
  constructor
  · intro ended session readable
    have absent := (ended []).1
    change (self.decode _ now token true).2.get token = none at absent
    rw [decode_removed, readable] at absent
    cases absent
  · intro unreadable later
    have absent : (self.logout (self.handleAll .empty before) now (some token)).get token =
        none := by
      change (self.decode _ now token true).2.get token = none
      rw [decode_removed]
      split
      · rfl
      · next readable => exact absurd readable (unreadable _)
    have after := get_handleAll inverts unreadable later absent
    refine ⟨after, fun now actor => ?_⟩
    simp only [authenticate, decode, after]
    cases read : self.readToken token with
    | error failure =>
      intro found
      cases found
    | ok session => exact absurd read (unreadable session)

section

variable (self : ConfigFileAuthProvider library) (cache : SessionCache library) (now : Nat)

def hexDecodes (text : String) : Bool := text.length % 2 == 0 && text.toList.all Text.isHexDigit

def saltOf (id : String) : String :=
  match self.users.get id with
  | some user => user.salt
  | none => self.fakeSalt

/-- Both texts are decoded first. There is no value where this panics. -/
def decodedLogin (id passwordHash : String) (nonce : library.Nonce) :
    Option (Except AuthError (LoggedInUser library) × SessionCache library) :=
  if hexDecodes passwordHash && hexDecodes (self.saltOf id) then
    some (self.login cache now (some (id, passwordHash)) nonce)
  else none

def DecidesByCredentials (id passwordHash : String) (nonce : library.Nonce) : Prop :=
  ∃ result, self.decodedLogin cache now id passwordHash nonce = some result ∧
    ((∃ user, result.1 = .ok user) ↔ ∃ user, self.users.get id = some user ∧
      library.scrypt passwordHash user.salt = user.passwordHash) ∧
    ((∃ user, result.1 = .ok user) ∨
      ∃ message, result.1 = .error (.apiInvalidCredentials message))

theorem exists_makeToken (encodes : library.Encodes) (session : ClientSession)
    (nonce : library.Nonce) : ∃ token, self.makeToken session nonce = .ok token := by
  obtain ⟨bytes, written⟩ := encodes.json session
  obtain ⟨encrypted, hidden⟩ := encodes.cipher self.sessionKey bytes nonce
  refine ⟨library.base64Encode encrypted, ?_⟩
  simp [makeToken, written, hidden, bind, Except.bind, pure, Except.pure]

theorem decidesByCredentials_iff (encodes : library.Encodes)
    (hexadecimal : ∀ id, hexDecodes (self.saltOf id)) (id passwordHash : String)
    (nonce : library.Nonce) :
    self.DecidesByCredentials cache now id passwordHash nonce ↔ hexDecodes passwordHash := by
  unfold DecidesByCredentials decodedLogin
  rw [hexadecimal id, Bool.and_true]
  constructor
  · rintro ⟨result, done, _⟩
    by_contra malformed
    rw [if_neg malformed] at done
    cases done
  · intro decodes
    rw [if_pos decodes]
    refine ⟨_, rfl, ?_⟩
    unfold login
    dsimp only
    cases known : self.users.get id with
    | none =>
      dsimp only
      split <;> simp
    | some user =>
      obtain ⟨token, made⟩ := self.exists_makeToken encodes
        { startTime := now, expiresIn := none, id, attributes := user.attributes,
          secrets := .empty } nonce
      dsimp only
      split
      · next right => simp [encode, made, Except.map, right]
      · next wrong => simp [wrong]

end

end ConfigFileAuthProvider

end Krill.Auth

namespace Krill.Auth.Clear

open ConfigFileAuthProvider

def library : Library where
  Token := Option ClientSession
  Bytes := ClientSession
  Key := Unit
  Nonce := Unit
  base64Encode := some
  base64Decode := id
  toJson := some
  fromJson := some
  encrypt := fun _ bytes _ => .ok bytes
  decrypt := fun _ bytes => .ok bytes
  scrypt := fun password _ => password

theorem inverts : library.Inverts where
  base64 := fun _ => rfl
  json := by
    rintro session bytes ⟨⟩
    rfl
  cipher := by
    rintro key bytes nonce encrypted ⟨⟩
    rfl

def provider : ConfigFileAuthProvider library where
  users := HashMap.empty.insert "alice" ⟨"secret", "salt", .empty⟩
  sessionKey := ()
  fakePasswordHash := "fake password hash"
  fakeSalt := "fake salt"
  ttlSecs := 30

theorem unreadable_token_ended : (∀ session, provider.readToken none ≠ .ok session) ∧ ∀ later,
    let cache := provider.handleAll (provider.logout (provider.handleAll .empty []) 0
      (some none)) later
    cache.get none = none ∧
      ∀ now actor, (provider.authenticate cache now (some none)).1 ≠ .ok (some actor) :=
  ⟨nofun, (logout_ends_session_iff inverts provider [] 0 none).mpr nofun⟩

def session : ClientSession := ⟨0, none, "alice", .empty, .empty⟩

/-- The token that a login gave is still accepted after a logout with it. -/
theorem session_outlives_logout :
    (provider.login .empty 0 (some ("alice", "secret")) ()).1 =
        .ok ⟨some session, "alice", .empty⟩ ∧
      let cache := provider.logout (provider.handleAll .empty
        [(0, .login (some ("alice", "secret")) ())]) 1 (some (some session))
      cache.get (some session) = some ⟨31, session⟩ ∧
        (provider.authenticate cache 2 (some (some session))).1 =
          .ok (some ⟨"alice", .empty⟩) :=
  ⟨rfl, rfl, rfl⟩

theorem alice_without_cache : library.Inverts ∧ ∀ history,
    (provider.authenticate (provider.handleAll .empty history) 1 (some (some session))).1 =
      (provider.authenticate .empty 1 (some (some session))).1 :=
  ⟨inverts, fun history => authenticate_without_cache inverts provider history 1 _⟩

theorem alice_lasts : (provider.authenticate (provider.handleAll .empty
      [(1, .logout (some (some session)))]) 2 (some (some session))).1 =
    .ok (some ⟨"alice", .empty⟩) :=
  have done : (provider.login .empty 0 (some ("alice", "secret")) ()).1 =
    .ok ⟨some session, "alice", .empty⟩ := rfl
  login_lasts inverts done _ 2

theorem encodes : library.Encodes where
  json := fun session => ⟨session, rfl⟩
  cipher := fun _ bytes _ => ⟨bytes, rfl⟩

def salted : ConfigFileAuthProvider library :=
  { provider with
    users := HashMap.empty.insert "alice" ⟨"5ec2e7", "5a17", .empty⟩
    fakeSalt := "66616b652073616c74" }

theorem salted_hexadecimal (id : String) : hexDecodes (salted.saltOf id) := by
  unfold saltOf
  split
  · next user known =>
    rw [salted, HashMap.get_insert] at known
    split at known
    · cases known
      decide
    · cases known
  · decide

theorem hexadecimal_login_decides : hexDecodes "5ec2e7" ∧
    salted.DecidesByCredentials .empty 0 "alice" "5ec2e7" () :=
  ⟨by decide, (decidesByCredentials_iff salted .empty 0 encodes salted_hexadecimal "alice"
    "5ec2e7" ()).mpr (by decide)⟩

/-- A bearer token that is no hexadecimal text makes the server panic. -/
theorem malformed_login_panics : (∀ id, hexDecodes (salted.saltOf id)) ∧
    ¬salted.DecidesByCredentials .empty 0 "alice" "password" () := by
  have malformed : hexDecodes "password" = false := by decide
  refine ⟨salted_hexadecimal, ?_⟩
  simp [DecidesByCredentials, decodedLogin, malformed]

end Krill.Auth.Clear
