import Mes.Js.Json
import Mes.Shop.Idempotency
import Mes.Web.ApiRequest

/-!
One mount of `CheckoutPage` beside the server. Every submission of the mount carries
the same idempotency key. The page sees the answer to a submission, or it sees the
submission fail: the answer may be lost although the server has committed, and it may
never come from the service at all.

`CheckoutPage` stores the body that it gets unchecked, and `CheckoutSuccessPage`
reads the invitation in it. A replayed body has none.
-/

namespace Mes

open Js Transact

/-! ### Bodies -/

def PurchaseStatus.toJson : PurchaseStatus → Json
  | .completed => .string (text "COMPLETED")

def InvitationStatus.toJson : InvitationStatus → Json
  | .issued => .string (text "ISSUED")
  | .redeemed => .string (text "REDEEMED")
  | .expired => .string (text "EXPIRED")

def InvitationResponse.toJson (r : InvitationResponse) : Json :=
  .object
    [(text "id", .number (.ofNat r.id)),
      (text "studentEmail", .string (text r.studentEmail)),
      (text "status", r.status.toJson),
      (text "expiresAt", .string (text r.expiresAt)),
      (text "url", .string (text r.url))]

def PurchaseResponse.toJson (r : PurchaseResponse) : Json :=
  .object
    [(text "id", .number (.ofNat r.id)),
      (text "courseId", .number (.ofNat r.courseId)),
      (text "status", r.status.toJson),
      (text "amountPence", .number (.ofNat r.amountPence)),
      (text "createdAt", .string (text r.createdAt)),
      (text "invitation", r.invitation.toJson)]

def ReplayBody.toJson (r : ReplayBody) : Json :=
  .object
    [(text "purchaseId", .number (.ofNat r.purchaseId)),
      (text "invitationId", .number (.ofNat r.invitationId))]

def PurchaseAnswer.toJson : PurchaseAnswer → Json
  | .created body => body.toJson
  | .replayed body => body.toJson

namespace Web

/-- `value.name`, which throws for `undefined` and `null`. -/
def property (value : Option Json) (name : String) : Except Unit (Option Json) :=
  match value with
  | none | some .null => .error ()
  | some (.object members) => .ok (members.lookup (text name))
  | some _ => .ok none

/-- The members of an `IPurchaseResponse` that the success page reads. -/
def HasInvitation (body : Json) : Prop :=
  ∃ members url expiresAt studentEmail,
    property (some body) "invitation" = .ok (some (.object members)) ∧
      members.lookup (text "url") = some (.string url) ∧
        members.lookup (text "expiresAt") = some (.string expiresAt) ∧
          members.lookup (text "studentEmail") = some (.string studentEmail)

/-! ### The success page -/

/-- `!value` for what `JSON.parse` returns. -/
def falsy : Json → Bool
  | .null => true
  | .bool b => !b
  | .number (.finite _ bits) => bits.val == 0
  | .number (.infinite _) => false
  | .string s => s.isEmpty
  | .array _ | .object _ => false

mutual

/-- What React shows as a child: no object. -/
def isNode : Json → Bool
  | .object _ => false
  | .array xs => areNodes xs
  | _ => true

def areNodes : List Json → Bool
  | [] => true
  | x :: xs => isNode x && areNodes xs

end

inductive SuccessPage where
  | noPurchase
  | complete (expiresAt url studentEmail : Option Json)

/-- `CheckoutSuccessPage`, with the purchase that is read from the session. It throws or
shows the page. A date that cannot be read is shown as `Invalid Date`. -/
def checkoutSuccessPage (stored : Option Json) : Except Unit SuccessPage :=
  match stored with
  | none => .ok .noPurchase
  | some purchase =>
      if falsy purchase then .ok .noPurchase
      else do
        let invitation ← property (some purchase) "invitation"
        let expiresAt ← property invitation "expiresAt"
        let url ← property invitation "url"
        let studentEmail ← property invitation "studentEmail"
        if studentEmail.all isNode then .ok (.complete expiresAt url studentEmail)
        else .error ()

/-- The page is shown. -/
def renders (stored : Option Json) : Bool :=
  (checkoutSuccessPage stored).isOk

/-- An invitation is all that the page needs. -/
theorem renders_of_invitation {body : Json} (hbody : HasInvitation body) :
    renders (some body) = true := by
  obtain ⟨members, url, expiresAt, studentEmail, hinvitation, hurl, hexpires, hemail⟩ := hbody
  unfold renders checkoutSuccessPage
  dsimp only
  split
  · rfl
  · rw [hinvitation]
    show Except.isOk (if (members.lookup (text "studentEmail")).all isNode = true then
      Except.ok (SuccessPage.complete _ _ _) else Except.error ()) = true
    rw [hemail]
    rfl

theorem hasInvitation_created (r : PurchaseResponse) :
    HasInvitation (PurchaseAnswer.toJson (.created r)) :=
  ⟨_, text r.invitation.url, text r.invitation.expiresAt, text r.invitation.studentEmail,
    rfl, rfl, rfl, rfl⟩

theorem not_hasInvitation_replayed (r : ReplayBody) :
    ¬ HasInvitation (PurchaseAnswer.toJson (.replayed r)) := by
  rintro ⟨members, -, -, -, hinvitation, -⟩
  cases hinvitation

/-- The page keeps the text of a body, which is read back with its invitation. -/
theorem HasInvitation.plain {body : Json} (hbody : HasInvitation body) :
    HasInvitation body.plain := by
  obtain ⟨members, url, expiresAt, studentEmail, hinvitation, hurl, hexpires, hemail⟩ := hbody
  have hlookup (ms : Members) (name : JsString) :
      (Json.onValues Json.plain ms).lookup name = (ms.lookup name).map Json.plain := by
    induction ms with
    | nil => rfl
    | cons m ms ih =>
        show List.lookup name ((m.1, m.2.plain) :: Json.onValues Json.plain ms) = _
        rw [List.lookup_cons, List.lookup_cons]
        split <;> first | rfl | exact ih
  cases body with
  | object ms =>
      have hmember : ms.lookup (text "invitation") = some (.object members) :=
        Except.ok.inj hinvitation
      refine ⟨Json.onValues Json.plain members, url, expiresAt, studentEmail, ?_, ?_, ?_, ?_⟩
      · rw [Json.plain_object]
        show Except.ok (List.lookup _ _) = _
        rw [hlookup, hmember, Option.map_some, Json.plain_object]
      · rw [hlookup, hurl]
        rfl
      · rw [hlookup, hexpires]
        rfl
      · rw [hlookup, hemail]
        rfl
  | null | bool | number | string | array => cases hinvitation

/-- A replayed body has no invitation, and the page throws. -/
theorem not_renders_replayed (r : ReplayBody) :
    renders (some (PurchaseAnswer.toJson (.replayed r)).plain) = false :=
  rfl

/-! ### The checkout page -/

def PURCHASE_ALREADY_EXISTS_FOR_STUDENT_CODE : String := "PURCHASE_ALREADY_EXISTS_FOR_STUDENT"

/-- What a mount of the page is given, and the key that it generates. `parse` is
`createPurchaseSchema.safeParse` of the course and an email: the first issue, or the
text of the request. -/
structure CheckoutPage where
  courseId : String
  idempotencyKey : String
  parse : String → Except String String

structure CheckoutFlash where
  studentEmail : String
  courseId : String
  deriving DecidableEq, Repr

/-- Where the router is: at the page, or where the page has sent it. -/
inductive CheckoutRoute where
  | checkout
  | success
  | course
  | login
  deriving DecidableEq, Repr

/-- The state of the page, the place of the router, and the session storage. -/
structure CheckoutTab where
  location : CheckoutRoute := .checkout
  error : Option String := none
  submitting : Bool := false
  lastPurchase : Option Json := none
  checkoutFlash : Option CheckoutFlash := none

/-- How the `apiRequest` of a submission settles. -/
inductive Settled where
  | resolved (purchase : Json)
  | apiError (status : Nat) (code message : String)
  | rejected

namespace CheckoutPage

variable (page : CheckoutPage)

/-- `onSubmit` up to the request. -/
def onSubmit (auth : Option JwtPayload) (studentEmail : String) (tab : CheckoutTab) :
    CheckoutTab × Option Request :=
  let tab := { tab with error := none }
  match auth with
  | none => ({ tab with location := .login }, none)
  | some user =>
      match page.parse studentEmail with
      | .error message => ({ tab with error := some message }, none)
      | .ok body =>
          ({ tab with submitting := true },
            some (.createPurchase user (some page.idempotencyKey) body))

/-- The rest of `onSubmit`. The session keeps the text of the purchase, which is read
back as `Json.plain`. -/
def onSettled (studentEmail : String) (tab : CheckoutTab) : Settled → CheckoutTab
  | .resolved purchase =>
      { tab with
        lastPurchase := some purchase.plain
        location := .success
        submitting := false }
  | .apiError status code message =>
      if status = 409 ∧ code = PURCHASE_ALREADY_EXISTS_FOR_STUDENT_CODE then
        { tab with
          checkoutFlash := some ⟨studentEmail, page.courseId⟩
          location := .course
          submitting := false }
      else { tab with error := some message, submitting := false }
  | .rejected => { tab with error := some "Checkout failed.", submitting := false }

end CheckoutPage

/-! ### A mount beside the server -/

/-- The response of the server as `apiRequest` hands it over. -/
def settled : Except AppError Response → Settled
  | .ok (.purchase status answer) =>
      if isOk status then .resolved answer.toJson
      else .apiError status "UNKNOWN_ERROR"
        ("Unexpected response from server (HTTP " ++ toString status ++ ")")
  | .ok _ => .resolved .null
  | .error e => .apiError e.httpStatus e.code e.message

/-- The tab, the submission that it waits for with the email that was typed, and the
server. -/
structure Checkout (rt : Runtime) where
  tab : CheckoutTab
  waiting : Option (Pid × String) := none
  server : BackendWorld rt

inductive CheckoutAction (rt : Runtime) where
  | server (action : Action (platform rt))
  | submit (auth : Option JwtPayload) (studentEmail : String)
  | answer
  | lose (failure : Option (Nat × String × String))

namespace Checkout

variable {rt : Runtime} (page : CheckoutPage)

/-- The page waits for one submission at a time. -/
def step (c : Checkout rt) : CheckoutAction rt → Option (Checkout rt)
  | .server action => (c.server.step (handler rt) action).map fun server =>
      { c with server := server }
  | .submit auth studentEmail =>
      if c.tab.location = .checkout ∧ c.tab.submitting = false then
        match page.onSubmit auth studentEmail c.tab with
        | (tab, none) => some { c with tab := tab }
        | (tab, some req) => some
            { tab := tab
              waiting := some (c.server.procs.length, studentEmail)
              server := c.server.spawn (handler rt) req }
      else none
  | .answer =>
      match c.waiting with
      | none => none
      | some (p, studentEmail) =>
          match c.server.status p with
          | some (_, some out) => some
              { c with
                tab := page.onSettled studentEmail c.tab (settled out)
                waiting := none }
          | _ => none
  | .lose failure =>
      match c.waiting with
      | none => none
      | some (_, studentEmail) =>
          let out : Settled := match failure with
            | none => .rejected
            | some (status, code, message) => .apiError status code message
          some { c with tab := page.onSettled studentEmail c.tab out, waiting := none }

/-- Follow a schedule. -/
def run (c : Checkout rt) : List (CheckoutAction rt) → Option (Checkout rt)
  | [] => some c
  | a :: rest => (c.step page a).bind fun c' => c'.run rest

/-- What can become of a mount that begins when the server is in `w`. -/
inductive Reached (w : BackendWorld rt) : Checkout rt → Prop where
  | mount (lastPurchase : Option Json) (flash : Option CheckoutFlash) :
      Reached w
        { tab := { lastPurchase := lastPurchase, checkoutFlash := flash }
          server := w }
  | step {c c' : Checkout rt} (a : CheckoutAction rt) (hreached : Reached w c)
      (hstep : c.step page a = some c') : Reached w c'

theorem reached_of_run {w : BackendWorld rt} {schedule : List (CheckoutAction rt)}
    {c c' : Checkout rt} (hreached : Reached page w c) (hrun : c.run page schedule = some c') :
    Reached page w c' := by
  induction schedule generalizing c with
  | nil =>
      rw [← Option.some.inj hrun]
      exact hreached
  | cons a rest ih =>
      obtain ⟨next, hstep, hrest⟩ := Option.bind_eq_some_iff.mp hrun
      exact ih (hreached.step a hstep) hrest

/-- `p` is a submission of the mount. -/
def Submitted (w : BackendWorld rt) (p : Pid) : Prop :=
  ∃ user body, w.procs[p]?.map Proc.req =
    some (.createPurchase user (some page.idempotencyKey) body)

/-- The answer to the submission `p` has brought the page to the success page. -/
def Delivered (c : Checkout rt) (p : Pid) (user : JwtPayload) (body : String)
    (answer : PurchaseAnswer) : Prop :=
  c.server.Ended p (.createPurchase user (some page.idempotencyKey) body)
      (.ok (.purchase PurchasesService.PURCHASE_CREATED_STATUS answer)) ∧
    c.tab.lastPurchase = some answer.toJson.plain

/-- What holds throughout a mount. -/
structure Mounted (w : BackendWorld rt) (c : Checkout rt) : Prop where
  runs : Runs rt w c.server
  waiting : ∀ p studentEmail, c.waiting = some (p, studentEmail) → Submitted page c.server p
  shown : c.tab.location = .success → ∃ p user body answer, Delivered page c p user body answer

theorem Submitted.step {w w' : BackendWorld rt} {a : Action (platform rt)}
    (hstep : w.step (handler rt) a = some w') {p : Pid} (hsubmitted : Submitted page w p) :
    Submitted page w' p := by
  obtain ⟨user, body, hreq⟩ := hsubmitted
  obtain ⟨proc, hproc, heq⟩ := Option.map_eq_some_iff.mp hreq
  obtain ⟨proc', hproc', hkept, -⟩ := World.step_kept (handler rt) hstep hproc
  refine ⟨user, body, ?_⟩
  rw [hproc', Option.map_some, hkept, heq]

/-- What the server answers to a purchase that succeeds. -/
theorem purchase_answer {seed : Seed} {w : BackendWorld rt} (hruns : Runs rt (boot rt seed) w)
    {p : Pid} {user : JwtPayload} {key body : String} {response : Response}
    (hended : w.Ended p (.createPurchase user (some key) body) (.ok response)) :
    ∃ answer, response = .purchase PurchasesService.PURCHASE_CREATED_STATUS answer ∧
      ((∃ r, answer = .created r) ∧ ¬ FoundAtLookup p user.sub (rt.trim key) w.view ∨
        (∃ r, answer = .replayed r) ∧ FoundAtLookup p user.sub (rt.trim key) w.view) := by
  have htrading := (trading_run Relation.ReflTransGen.refl hruns).1
  have hkey {k : String} (hadmitted : Admitted rt user (some key) k) : k = rt.trim key :=
    (Option.some.inj hadmitted.header).symm
  have hend : PurchaseEnd p _ user (some key) body w.view (.ok response) :=
    htrading.ended hended (Nat.zero_le p)
  generalize hout : (Except.ok response : Except AppError Response) = out at hend
  cases hend with
  | answered s k row hadmitted htrail hfound hrow =>
      obtain ⟨P, I, -, -, hbundle⟩ := htrading.sound.keyed row.1 row.2 hrow
      unfold replay at hout
      split at hout
      · cases hout
      · rw [hbundle.status] at hout
        refine ⟨_, Except.ok.inj hout, Or.inr ⟨⟨_, rfl⟩, s, ?_, ?_⟩⟩
        · rw [htrail.reads]
          rfl
        · rw [← hkey hadmitted, hfound]
          rfl
  | created s c g k dto course t₀ result hadmitted hdto hmiss hcourse hfirst hguard hsale hsold =>
      refine ⟨_, Except.ok.inj hout, Or.inl ⟨⟨_, rfl⟩, ?_⟩⟩
      rintro ⟨s', hs', hfound⟩
      rw [hsold.reads, List.getElem?_cons_zero] at hs'
      rw [← Option.some.inj hs', ← hkey hadmitted, hmiss] at hfound
      cases hfound
  | refused | invalid | unknownCourse | duplicate | failed => cases hout

theorem onSettled_unless_resolved {out : Settled} (hout : ∀ purchase, out ≠ .resolved purchase)
    (studentEmail : String) (tab : CheckoutTab) :
    ((page.onSettled studentEmail tab out).location = .success → tab.location = .success) ∧
      (page.onSettled studentEmail tab out).lastPurchase = tab.lastPurchase := by
  cases out with
  | resolved purchase => exact absurd rfl (hout purchase)
  | apiError status code message =>
      simp only [CheckoutPage.onSettled]
      split
      · exact ⟨(by rintro ⟨⟩), rfl⟩
      · exact ⟨id, rfl⟩
  | rejected => exact ⟨id, rfl⟩

/-- A submission does not leave for the success page, and it carries the key. -/
theorem onSubmit_cases {auth : Option JwtPayload} {studentEmail : String} {tab tab' : CheckoutTab}
    {req : Option Request} (hsubmit : page.onSubmit auth studentEmail tab = (tab', req)) :
    (tab'.location = .success → tab.location = .success) ∧
      ∀ r, req = some r →
        ∃ user body, r = .createPurchase user (some page.idempotencyKey) body := by
  unfold CheckoutPage.onSubmit at hsubmit
  cases auth with
  | none =>
      obtain ⟨rfl, rfl⟩ := Prod.mk.inj hsubmit
      exact ⟨(by rintro ⟨⟩), (by rintro r ⟨⟩)⟩
  | some user =>
      dsimp only at hsubmit
      split at hsubmit
      · obtain ⟨rfl, rfl⟩ := Prod.mk.inj hsubmit
        exact ⟨id, (by rintro r ⟨⟩)⟩
      · rename_i body hparse
        obtain ⟨rfl, rfl⟩ := Prod.mk.inj hsubmit
        exact ⟨id, fun r hr => ⟨user, body, (Option.some.inj hr).symm⟩⟩

/-- The page has settled a submission in a way that delivers nothing. -/
theorem Mounted.settle {w : BackendWorld rt} {c : Checkout rt} (hmounted : Mounted page w c)
    {out : Settled} (hout : ∀ purchase, out ≠ .resolved purchase) (studentEmail : String) :
    Mounted page w
      { c with tab := page.onSettled studentEmail c.tab out, waiting := none } := by
  obtain ⟨hlocation, hpurchase⟩ := onSettled_unless_resolved page hout studentEmail c.tab
  refine ⟨hmounted.runs, (by rintro p email ⟨⟩), fun hshown => ?_⟩
  obtain ⟨p, user, body, answer, hended, hstored⟩ := hmounted.shown (hlocation hshown)
  exact ⟨p, user, body, answer, hended, hpurchase.trans hstored⟩

theorem Mounted.step {seed : Seed} {w : BackendWorld rt} (hboot : Runs rt (boot rt seed) w)
    {c c' : Checkout rt} {a : CheckoutAction rt} (hmounted : Mounted page w c)
    (hstep : c.step page a = some c') : Mounted page w c' := by
  cases a with
  | server action =>
      obtain ⟨server, hserver, rfl⟩ := Option.map_eq_some_iff.mp hstep
      refine ⟨hmounted.runs.tail ⟨action, hserver, by cases action <;> trivial⟩, ?_, ?_⟩
      · exact fun p studentEmail hwaiting =>
          (hmounted.waiting p studentEmail hwaiting).step page hserver
      · intro hshown
        obtain ⟨p, user, body, answer, hended, hstored⟩ := hmounted.shown hshown
        exact ⟨p, user, body, answer, World.step_ended (handler rt) hserver hended, hstored⟩
  | submit auth studentEmail =>
      unfold Checkout.step at hstep
      dsimp only at hstep
      split at hstep
      · rename_i hready
        split at hstep
        · rename_i tab hsubmit
          obtain ⟨hlocation, -⟩ := onSubmit_cases page hsubmit
          rw [← Option.some.inj hstep]
          refine ⟨hmounted.runs, hmounted.waiting, fun hshown => ?_⟩
          rw [hready.1] at hlocation
          cases hlocation hshown
        · rename_i tab req hsubmit
          obtain ⟨hlocation, hreq⟩ := onSubmit_cases page hsubmit
          obtain ⟨user, body, rfl⟩ := hreq req rfl
          rw [← Option.some.inj hstep]
          refine ⟨hmounted.runs.tail ⟨.spawn _, rfl, trivial⟩, ?_, fun hshown => ?_⟩
          · intro p email hwaiting
            obtain ⟨rfl, -⟩ := Prod.mk.inj (Option.some.inj hwaiting)
            refine ⟨user, body, ?_⟩
            rw [World.spawn, List.getElem?_append_right (Nat.le_refl _), Nat.sub_self]
            rfl
          · rw [hready.1] at hlocation
            cases hlocation hshown
      · cases hstep
  | answer =>
      unfold Checkout.step at hstep
      dsimp only at hstep
      split at hstep
      · cases hstep
      · rename_i p studentEmail hwaiting
        split at hstep
        · rename_i req out hstatus
          have hended : c.server.Ended p req out := World.ended_of_status hstatus
          obtain ⟨user, body, hreq⟩ := hmounted.waiting p studentEmail hwaiting
          obtain rfl : req = .createPurchase user (some page.idempotencyKey) body := by
            obtain ⟨proc, hproc, rfl, -⟩ := hended
            rw [hproc] at hreq
            exact Option.some.inj hreq
          rw [← Option.some.inj hstep]
          cases out with
          | error e => exact hmounted.settle page (by rintro purchase ⟨⟩) studentEmail
          | ok response =>
              obtain ⟨answer, rfl, -⟩ := purchase_answer (hboot.trans hmounted.runs) hended
              exact ⟨hmounted.runs, (by rintro p email ⟨⟩),
                fun _ => ⟨p, user, body, answer, hended, rfl⟩⟩
        · cases hstep
  | lose failure =>
      unfold Checkout.step at hstep
      dsimp only at hstep
      split at hstep
      · cases hstep
      · rename_i p studentEmail hwaiting
        rw [← Option.some.inj hstep]
        refine hmounted.settle page ?_ studentEmail
        cases failure <;> rintro purchase ⟨⟩

theorem Reached.mounted {seed : Seed} {w : BackendWorld rt} (hboot : Runs rt (boot rt seed) w)
    {c : Checkout rt} (hreached : Reached page w c) : Mounted page w c := by
  induction hreached with
  | mount lastPurchase flash =>
      exact ⟨Relation.ReflTransGen.refl, (by rintro p email ⟨⟩), (by rintro ⟨⟩)⟩
  | step a hreached hstep ih => exact ih.step page hboot hstep

/-- A mount of the page beside any run of the server, at any moment: a body with the status
201 is a purchase, and the success page is shown, if and only if the lookup of its
request has found no row under the key. -/
theorem checkout_renders_iff {seed : Seed} {w : BackendWorld rt}
    (hboot : Runs rt (boot rt seed) w) {c : Checkout rt} (hreached : Reached page w c) :
    (∀ p user body answer,
      c.server.Ended p (.createPurchase user (some page.idempotencyKey) body)
          (.ok (.purchase PurchasesService.PURCHASE_CREATED_STATUS answer)) →
        (HasInvitation answer.toJson ↔
          ¬ FoundAtLookup p user.sub (rt.trim page.idempotencyKey) c.server.view)) ∧
      (c.tab.location = .success → ∃ p user body answer,
        Delivered page c p user body answer ∧
          (renders c.tab.lastPurchase = true ↔
            ¬ FoundAtLookup p user.sub (rt.trim page.idempotencyKey) c.server.view)) := by
  have hmounted := hreached.mounted page hboot
  have hruns := hboot.trans hmounted.runs
  constructor
  · intro p user body answer hended
    obtain ⟨_, ⟨⟩, ⟨⟨r, rfl⟩, hmissed⟩ | ⟨⟨r, rfl⟩, hfound⟩⟩ := purchase_answer hruns hended
    · exact iff_of_true (hasInvitation_created r) hmissed
    · exact iff_of_false (not_hasInvitation_replayed r) (not_not_intro hfound)
  · intro hshown
    obtain ⟨p, user, body, answer, hended, hstored⟩ := hmounted.shown hshown
    refine ⟨p, user, body, answer, ⟨hended, hstored⟩, ?_⟩
    rw [hstored]
    obtain ⟨_, ⟨⟩, ⟨⟨r, rfl⟩, hmissed⟩ | ⟨⟨r, rfl⟩, hfound⟩⟩ := purchase_answer hruns hended
    · exact iff_of_true (renders_of_invitation (hasInvitation_created r).plain) hmissed
    · refine iff_of_false ?_ (not_not_intro hfound)
      rw [not_renders_replayed]
      decide

end Checkout

/-! ### A response that is lost -/

def samplePage : CheckoutPage where
  courseId := "0"
  idempotencyKey := "checkout-1"
  parse := .ok

/-- The parent submits twice, since the answer to the first submission is lost after the
server has committed. -/
def sampleResubmission : List (CheckoutAction sampleRuntime) :=
  sampleSignup.map .server ++ .submit (some ⟨0, .parent⟩) "student@example.com" ::
    ((operations 1 11 "I1").map .server ++
      .lose none :: .submit (some ⟨0, .parent⟩) "student@example.com" ::
        ((operations 2 1 "").map .server ++ [.answer]))

/-- Before the first submission. -/
def sampleMount : Checkout sampleRuntime where
  tab := {}
  server := boot sampleRuntime sampleSeed

theorem sample_resubmission : ∃ c : Checkout sampleRuntime,
    Checkout.Reached samplePage (boot sampleRuntime sampleSeed) c ∧
      c.tab.location = .success ∧ renders c.tab.lastPurchase = false := by
  have hrun : (sampleMount.run samplePage sampleResubmission).any
      (fun c => decide (c.tab.location = .success) &&
        decide (renders c.tab.lastPurchase = false)) = true := by
    decide +kernel
  obtain ⟨c, hc, hchecks⟩ := (Option.any_eq_true _ _).mp hrun
  simp only [Bool.and_eq_true, decide_eq_true_eq] at hchecks
  exact ⟨c, Checkout.reached_of_run samplePage (.mount none none) hc, hchecks⟩

theorem checkout_renders_sample : ∃ c : Checkout sampleRuntime,
    renders c.tab.lastPurchase = false ∧ ∃ p user body answer,
      Checkout.Delivered samplePage c p user body answer ∧
        (renders c.tab.lastPurchase = true ↔
          ¬ FoundAtLookup p user.sub (sampleRuntime.trim samplePage.idempotencyKey)
            c.server.view) := by
  obtain ⟨c, hreached, hshown, hthrows⟩ := sample_resubmission
  exact ⟨c, hthrows, (Checkout.checkout_renders_iff samplePage Relation.ReflTransGen.refl
    hreached).2 hshown⟩

/-- The success page throws after the second submission. -/
theorem checkout_throws :
    ¬ (∀ c : Checkout sampleRuntime,
      Checkout.Reached samplePage (boot sampleRuntime sampleSeed) c →
        c.tab.location = .success → renders c.tab.lastPurchase = true) := by
  intro hrenders
  obtain ⟨c, hreached, hshown, hthrows⟩ := sample_resubmission
  have hshows := hrenders c hreached hshown
  rw [hthrows] at hshows
  cases hshows

end Web

end Mes
