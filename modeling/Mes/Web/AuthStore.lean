import Mes.Schema

/-!
`authStore` of the web application. The token and the user's data are kept
apart, and the state that pages see is rebuilt from the two after every change.
`AuthStore` carries the result of the last rebuild as a field, so a state that
does not belong to its token and user cannot be built. Listeners are left out.
-/

namespace Mes.Web

/-- An access token: the claims it holds, and what tells it from other tokens
with the same claims. -/
structure AccessToken where
  sub : Nat
  role : UserRole
  serial : Nat
  deriving DecidableEq, Repr

structure StoredUser where
  userId : Nat
  role : UserRole
  email : String
  deriving DecidableEq, Repr

structure AuthState where
  accessToken : AccessToken
  userId : Nat
  role : UserRole
  email : String
  deriving DecidableEq, Repr

/-- What `rebuildState` assigns to `cachedState`. -/
def rebuilt : Option AccessToken → Option StoredUser → Option AuthState
  | some memoryToken, some storedUser => some
      { accessToken := memoryToken
        userId := storedUser.userId
        role := storedUser.role
        email := storedUser.email }
  | _, _ => none

structure AuthStore where
  memoryToken : Option AccessToken
  storedUser : Option StoredUser
  isLoggingOut : Bool
  cachedState : Option AuthState
  fresh : cachedState = rebuilt memoryToken storedUser
  deriving DecidableEq

namespace AuthStore

def rebuildState (memoryToken : Option AccessToken) (storedUser : Option StoredUser)
    (isLoggingOut : Bool) : AuthStore where
  memoryToken := memoryToken
  storedUser := storedUser
  isLoggingOut := isLoggingOut
  cachedState := rebuilt memoryToken storedUser
  fresh := rfl

/-- The module as it is loaded. -/
def initial : AuthStore :=
  rebuildState none none false

def getState (s : AuthStore) : Option AuthState :=
  s.cachedState

def setState (next : AuthState) : AuthStore :=
  rebuildState (some next.accessToken)
    (some { userId := next.userId, role := next.role, email := next.email })
    false

def setToken (s : AuthStore) (token : AccessToken) : AuthStore :=
  rebuildState (some token) s.storedUser s.isLoggingOut

def setUser (s : AuthStore) (user : StoredUser) : AuthStore :=
  rebuildState s.memoryToken (some user) s.isLoggingOut

def clear (s : AuthStore) : AuthStore :=
  rebuildState none none s.isLoggingOut

def setIsLoggingOut (s : AuthStore) (value : Bool) : AuthStore :=
  { s with isLoggingOut := value }

/-- Neither a token nor a user is stored. -/
def Empty (s : AuthStore) : Prop :=
  s.memoryToken = none ∧ s.storedUser = none

instance (s : AuthStore) : Decidable s.Empty :=
  inferInstanceAs (Decidable (_ ∧ _))

/-- The state that pages see is determined by the rest. -/
theorem ext_of_parts {s s' : AuthStore} (htoken : s.memoryToken = s'.memoryToken)
    (huser : s.storedUser = s'.storedUser) (hflag : s.isLoggingOut = s'.isLoggingOut) :
    s = s' := by
  obtain ⟨token, user, flag, cached, hfresh⟩ := s
  obtain ⟨token', user', flag', cached', hfresh'⟩ := s'
  obtain rfl : token = token' := htoken
  obtain rfl : user = user' := huser
  obtain rfl : flag = flag' := hflag
  obtain rfl : cached = cached' := hfresh.trans hfresh'.symm
  rfl

theorem clear_eq_iff (s : AuthStore) : s.clear = s ↔ s.Empty := by
  constructor
  · intro hsame
    exact ⟨(congrArg memoryToken hsame).symm, (congrArg storedUser hsame).symm⟩
  · rintro ⟨htoken, huser⟩
    exact ext_of_parts htoken.symm huser.symm rfl

theorem setToken_eq_iff (s : AuthStore) (token : AccessToken) :
    s.setToken token = s ↔ s.memoryToken = some token := by
  constructor
  · intro hsame
    exact (congrArg memoryToken hsame).symm
  · intro htoken
    exact ext_of_parts htoken.symm rfl rfl

/-- The user's data, where stored, are those of the stored token. -/
def Consistent (s : AuthStore) : Prop :=
  ∀ token user, s.memoryToken = some token → s.storedUser = some user →
    user.userId = token.sub ∧ user.role = token.role

/-- What pages see is consistent when the stored parts are. -/
theorem Consistent.cached {s : AuthStore} (hconsistent : s.Consistent) {state : AuthState}
    (hstate : s.getState = some state) :
    state.userId = state.accessToken.sub ∧ state.role = state.accessToken.role := by
  rw [getState, s.fresh] at hstate
  cases htoken : s.memoryToken with
  | none =>
      rw [htoken] at hstate
      cases hstate
  | some token =>
      cases huser : s.storedUser with
      | none =>
          rw [htoken, huser] at hstate
          cases hstate
      | some user =>
          rw [htoken, huser] at hstate
          rw [← Option.some.inj hstate]
          exact hconsistent token user htoken huser

end AuthStore

end Mes.Web
