import Mes.Server
import Mathlib.Logic.Relation

/-!
`InvitationEmailProcessor`: the worker that sends an invitation email. `process`
reads the invitation, logs the send and marks the row, with an await at each call
of the database. Any number of its runs for one invitation may be under way:
several workers, retries after an error, and redeliveries of a stalled job, which
are all new runs of the same job. A database call may fail before or after it has
had its effect; it then throws, and the run is over.

The mark is one conditional `UPDATE`, so it is carried out in one step.
-/

namespace Mes

open Transact

/-- What `process` writes to the log. `sent` is the send event. -/
inductive EmailLog where
  | notFound (invitationId : Nat)
  | alreadySent (invitationId : Nat) (sentAt : Time)
  | sent (invitationId : Nat) (recipientEmailDomain courseTitle : String)
  | lostRace (invitationId : Nat)
  deriving DecidableEq, Repr

inductive EmailOp where
  | findById (invitationId : Nat)
  | markEmailSent (invitationId : Nat)
  | log (event : EmailLog)

/-- A failed database call answers an error, which `process` throws. -/
@[reducible] def EmailOp.Res : EmailOp → Type
  | .findById _ => Except Unit (Option Invitation)
  | .markEmailSent _ => Except Unit Nat
  | .log _ => Unit

abbrev emailSig : Signature where
  Op := EmailOp
  Res := EmailOp.Res

abbrev EmailCode (α : Type) := Prog emailSig Unit α

namespace InvitationEmailProcessor

def raise {α : Type} : Except Unit α → EmailCode α
  | .ok a => .ret a
  | .error e => .throw e

def findById (invitationId : Nat) : EmailCode (Option Invitation) :=
  .step (.findById invitationId) raise

def markEmailSent (invitationId : Nat) : EmailCode Nat :=
  .step (.markEmailSent invitationId) raise

def log (event : EmailLog) : EmailCode Unit :=
  .step (.log event) .ret

/-- `recipientEmail.split('@')[1] ?? 'unknown'`. -/
def emailDomain (recipientEmail : String) : String :=
  match recipientEmail.toList.dropWhile fun c => c != '@' with
  | [] => "unknown"
  | _ :: rest => String.ofList (rest.takeWhile fun c => c != '@')

def process (job : InvitationEmailJob) : EmailCode Unit := do
  match ← findById job.invitationId with
  | none => log (.notFound job.invitationId)
  | some invitation =>
      match invitation.emailSentAt with
      | some sentAt => log (.alreadySent job.invitationId sentAt)
      | none =>
          log (.sent job.invitationId (emailDomain job.recipientEmail) job.courseTitle)
          let affected ← markEmailSent job.invitationId
          if affected = 0 then log (.lostRace job.invitationId)
          else pure ()

end InvitationEmailProcessor

/-! ### Runs beside one another -/

/-- The row of the invitation, the runs so far and the log. `readers` remembers,
for proofs, which runs have read the row unsent. -/
structure EmailWorld where
  invitation : Option Invitation
  runs : List (EmailCode Unit) := []
  log : List EmailLog := []
  readers : List Nat := []

inductive EmailAction where
  /-- A worker starts on the job: the first delivery, a retry or a redelivery. -/
  | deliver
  /-- The next call of a run is carried out. -/
  | answer (run : Nat) (now : Time)
  /-- The next database call of a run fails, possibly after it had its effect. -/
  | fail (run : Nat) (applied : Bool) (now : Time)

namespace EmailWorld

/-- `UPDATE ... SET email_sent_at = now() WHERE email_sent_at IS NULL`. -/
def mark (now : Time) (invitation : Option Invitation) : Option Invitation :=
  invitation.map fun row =>
    if row.emailSentAt.isNone then { row with emailSentAt := some now } else row

def unsent (invitation : Option Invitation) : Bool :=
  invitation.any fun row => row.emailSentAt.isNone

/-- One call of a run: its answer, and what it does to the world. -/
def serve (w : EmailWorld) (run : Nat) (now : Time) :
    (op : EmailOp) → op.Res × EmailWorld
  | .findById _ =>
      (.ok w.invitation,
        { w with readers := if unsent w.invitation then run :: w.readers else w.readers })
  | .markEmailSent _ =>
      (.ok (if unsent w.invitation then 1 else 0),
        { w with invitation := mark now w.invitation })
  | .log event => ((), { w with log := w.log ++ [event] })

/-- A database call that fails. -/
def drop (w : EmailWorld) (applied : Bool) (now : Time) :
    (op : EmailOp) → Option (op.Res × EmailWorld)
  | .findById _ => some (.error (), w)
  | .markEmailSent _ =>
      some (.error (),
        { w with invitation := if applied then mark now w.invitation else w.invitation })
  | .log _ => none

def step (job : InvitationEmailJob) (w : EmailWorld) : EmailAction → Option EmailWorld
  | .deliver =>
      some { w with runs := w.runs ++ [InvitationEmailProcessor.process job] }
  | .answer run now =>
      match w.runs[run]? with
      | some (.step op k) =>
          let out := w.serve run now op
          some { out.2 with runs := w.runs.set run (k out.1) }
      | _ => none
  | .fail run applied now =>
      match w.runs[run]? with
      | some (.step op k) =>
          (w.drop applied now op).map fun out =>
            { out.2 with runs := w.runs.set run (k out.1) }
      | _ => none

def follow (job : InvitationEmailJob) (w : EmailWorld) :
    List EmailAction → Option EmailWorld
  | [] => some w
  | a :: rest => (w.step job a).bind fun w' => w'.follow job rest

end EmailWorld

def EmailLog.isSend : EmailLog → Bool
  | .sent _ _ _ => true
  | _ => false

/-- How often the email has been sent. -/
def EmailWorld.sends (w : EmailWorld) : Nat :=
  w.log.countP EmailLog.isSend

/-- No earlier reader's mark is missing when a run reads the row: once some run
has read it unsent, the next read finds it marked. -/
def EmailWorld.readsSettled (w : EmailWorld) : EmailAction → Bool
  | .answer run _ =>
      match w.runs[run]? with
      | some (.step (.findById _) _) => w.readers.isEmpty || !EmailWorld.unsent w.invitation
      | _ => true
  | _ => true

/-- Every step of a schedule meets the condition. -/
def EmailWorld.settledAlong (job : InvitationEmailJob) (w : EmailWorld) :
    List EmailAction → Bool
  | [] => true
  | a :: rest => w.readsSettled a && (w.step job a).all fun w' => w'.settledAlong job rest

namespace InvitationEmailProcessor

variable {job : InvitationEmailJob}

/-- The run's next call is the send. -/
def sending : EmailCode Unit → Bool
  | .step (.log event) _ => event.isSend
  | _ => false

/-- A call that neither reads the row nor sends. -/
def harmless : EmailOp → Prop
  | .findById _ => False
  | .markEmailSent _ => True
  | .log event => event.isSend = false

def Quiet (x : EmailCode Unit) : Prop :=
  Prog.Uses (S := emailSig) harmless x

/-- A run has not read the row, or is about to send, or can no longer send. -/
def Staged (job : InvitationEmailJob) (x : EmailCode Unit) : Prop :=
  x = process job ∨
    (∃ event k, x = .step (.log event) k ∧ event.isSend = true ∧ ∀ r, Quiet (k r)) ∨
      Quiet x

/-- The rest of `process` after its read. -/
def afterRead (job : InvitationEmailJob) (r : Except Unit (Option Invitation)) :
    EmailCode Unit :=
  (raise r).andThen fun found =>
    match found with
    | none => log (.notFound job.invitationId)
    | some invitation =>
        match invitation.emailSentAt with
        | some sentAt => log (.alreadySent job.invitationId sentAt)
        | none => (log (.sent job.invitationId (emailDomain job.recipientEmail)
            job.courseTitle)).andThen fun _ =>
              (markEmailSent job.invitationId).andThen fun affected =>
                if affected = 0 then log (.lostRace job.invitationId) else .ret ()

theorem process_eq (job : InvitationEmailJob) :
    process job = .step (.findById job.invitationId) (afterRead job) := rfl

theorem quiet_log {event : EmailLog} (hevent : event.isSend = false) : Quiet (log event) :=
  ⟨hevent, fun _ => trivial⟩

/-- After a send only the mark and the message about a lost race remain. -/
theorem quiet_afterSend (job : InvitationEmailJob) :
    Quiet ((markEmailSent job.invitationId).andThen fun affected =>
      if affected = 0 then log (.lostRace job.invitationId) else .ret ()) := by
  refine ⟨trivial, fun r => ?_⟩
  cases r with
  | error e => trivial
  | ok affected =>
      show Quiet (if affected = 0 then log (.lostRace job.invitationId) else .ret ())
      by_cases hlost : affected = 0
      · rw [if_pos hlost]
        exact quiet_log rfl
      · rw [if_neg hlost]
        trivial

/-- A run that has read the row unsent is about to send; any other can no longer
send. -/
theorem afterRead_staged (job : InvitationEmailJob) (found : Option Invitation) :
    Staged job (afterRead job (.ok found)) ∧
      sending (afterRead job (.ok found)) = EmailWorld.unsent found := by
  cases found with
  | none => exact ⟨Or.inr (Or.inr (quiet_log rfl)), rfl⟩
  | some invitation =>
      cases hsent : invitation.emailSentAt with
      | some sentAt =>
          have hrest : afterRead job (.ok (some invitation)) =
              log (.alreadySent job.invitationId sentAt) := by
            simp only [afterRead, raise, Prog.andThen_ret, hsent]
          rw [hrest]
          refine ⟨Or.inr (Or.inr (quiet_log rfl)), ?_⟩
          simp [EmailWorld.unsent, hsent, sending, log, EmailLog.isSend]
      | none =>
          have hrest : afterRead job (.ok (some invitation)) =
              .step (.log (.sent job.invitationId (emailDomain job.recipientEmail)
                job.courseTitle)) fun _ => (markEmailSent job.invitationId).andThen
                  fun affected =>
                    if affected = 0 then log (.lostRace job.invitationId) else .ret () := by
            simp only [afterRead, raise, Prog.andThen_ret, hsent]
            rfl
          rw [hrest]
          refine ⟨Or.inr (Or.inl ⟨_, _, rfl, rfl, fun _ => quiet_afterSend job⟩), ?_⟩
          simp [EmailWorld.unsent, hsent, sending, EmailLog.isSend]

theorem quiet_not_sending {x : EmailCode Unit} (hquiet : Quiet x) : sending x = false := by
  cases x with
  | ret a => rfl
  | throw e => rfl
  | step op k =>
      cases op with
      | findById id => rfl
      | markEmailSent id => rfl
      | log event => exact hquiet.1

end InvitationEmailProcessor

open InvitationEmailProcessor

/-- Replacing one entry of a list changes a count by that entry. -/
theorem countP_set_add {α : Type} (test : α → Bool) {l : List α} {i : Nat} {x : α} (a : α)
    (hx : l[i]? = some x) :
    (l.set i a).countP test + (test x).toNat = l.countP test + (test a).toNat := by
  induction l generalizing i with
  | nil => cases hx
  | cons y rest ih =>
      cases i with
      | zero =>
          obtain rfl : y = x := by simpa using hx
          cases htest : test y <;> cases htest' : test a <;>
            simp [htest, htest']
      | succ i =>
          have hrest := ih (i := i) (by simpa using hx)
          simp only [List.set_cons_succ, List.countP_cons]
          omega

/-- At most one run has read the row unsent, and every send is announced by such
a read. -/
structure EmailInv (job : InvitationEmailJob) (w : EmailWorld) : Prop where
  staged : ∀ x ∈ w.runs, Staged job x
  once : w.readers.length ≤ 1
  balance : w.sends + w.runs.countP sending ≤ w.readers.length

section Steps

variable {job : InvitationEmailJob} {w w' : EmailWorld} {run : Nat} {now : Time}

/-- A run moves on: the rest of the world is `v`, and the balance is kept. -/
theorem EmailInv.advance (hinv : EmailInv job w) {x y : EmailCode Unit} {v : EmailWorld}
    (hx : w.runs[run]? = some x) (hy : Staged job y) (honce : v.readers.length ≤ 1)
    (hbalance : v.sends + w.readers.length + (sending y).toNat ≤
      w.sends + v.readers.length + (sending x).toNat) :
    EmailInv job { v with runs := w.runs.set run y } where
  staged := by
    intro z hz
    rcases List.mem_or_eq_of_mem_set hz with hold | rfl
    · exact hinv.staged z hold
    · exact hy
  once := honce
  balance := by
    have hcount := countP_set_add sending y hx
    have hbefore := hinv.balance
    show v.sends + (w.runs.set run y).countP sending ≤ v.readers.length
    omega

theorem EmailInv.deliver (hinv : EmailInv job w) :
    EmailInv job { w with runs := w.runs ++ [process job] } where
  staged := by
    intro x hx
    rcases List.mem_append.mp hx with hold | hnew
    · exact hinv.staged x hold
    · exact Or.inl (by simpa using hnew)
  once := hinv.once
  balance := by
    have hbefore := hinv.balance
    have hidle : sending (process job) = false := rfl
    show w.sends + (w.runs ++ [process job]).countP sending ≤ w.readers.length
    simp only [List.countP_append, List.countP_singleton, hidle]
    exact hbefore

/-- The read of a row is the only call that adds a reader, and only while there
is none. -/
theorem EmailInv.read (hinv : EmailInv job w)
    (hx : w.runs[run]? = some (process job))
    (hsettled : w.readers ≠ [] → EmailWorld.unsent w.invitation = false) :
    EmailInv job
      { w with
        readers := if EmailWorld.unsent w.invitation then run :: w.readers else w.readers
        runs := w.runs.set run (afterRead job (.ok w.invitation)) } := by
  obtain ⟨hstaged, hsending⟩ := afterRead_staged job w.invitation
  have hidle : sending (process job) = false := rfl
  cases hunsent : EmailWorld.unsent w.invitation with
  | false =>
      rw [hunsent] at hsending
      refine hinv.advance (v := w) hx hstaged hinv.once ?_
      rw [hidle, hsending]
  | true =>
      have hnone : w.readers = [] := by
        by_contra hsome
        rw [hsettled hsome] at hunsent
        cases hunsent
      rw [hunsent] at hsending
      refine hinv.advance (v := { w with readers := run :: w.readers }) hx hstaged ?_ ?_
      · simp [hnone]
      · rw [hidle, hsending]
        simp [EmailWorld.sends, Nat.add_assoc]

theorem sends_log (event : EmailLog) :
    ({ w with log := w.log ++ [event] } : EmailWorld).sends =
      w.sends + event.isSend.toNat := by
  unfold EmailWorld.sends
  cases hsend : event.isSend <;> simp [List.countP_append, hsend]

/-- What an answered call does to the balance, one case for each stage. -/
theorem EmailInv.answer (hinv : EmailInv job w) {op : EmailOp}
    {k : op.Res → EmailCode Unit} (hx : w.runs[run]? = some (.step op k))
    (hsettled : w.readsSettled (.answer run now) = true) :
    EmailInv job { (w.serve run now op).2 with
      runs := w.runs.set run (k (w.serve run now op).1) } := by
  rcases hinv.staged _ (List.mem_of_getElem? hx) with
    hfresh | ⟨event, k', hsend, hevent, hrest⟩ | hquiet
  · rw [process_eq] at hfresh
    cases hfresh
    refine hinv.read hx fun hreaders => ?_
    rw [EmailWorld.readsSettled, hx] at hsettled
    simpa [hreaders] using hsettled
  · cases hsend
    refine hinv.advance (v := { w with log := w.log ++ [event] }) hx
      (Or.inr (Or.inr (hrest _))) hinv.once ?_
    rw [sends_log, quiet_not_sending (hrest _)]
    simp only [sending, hevent]
    show w.sends + 1 + w.readers.length + 0 ≤ w.sends + w.readers.length + 1
    omega
  · have hrest := hquiet.2
    cases op with
    | findById id => exact hquiet.1.elim
    | markEmailSent id =>
        refine hinv.advance (v := { w with invitation := EmailWorld.mark now w.invitation }) hx
          (Or.inr (Or.inr (hrest _))) hinv.once ?_
        rw [quiet_not_sending (hrest _)]
        exact Nat.le_refl _
    | log event =>
        have hother : event.isSend = false := hquiet.1
        refine hinv.advance (v := { w with log := w.log ++ [event] }) hx
          (Or.inr (Or.inr (hrest _))) hinv.once ?_
        rw [sends_log, quiet_not_sending (hrest _)]
        simp only [sending, hother]
        exact Nat.le_refl _

/-- A failed call ends its run; a failed read announces nothing. -/
theorem EmailInv.fail (hinv : EmailInv job w) {op : EmailOp} {k : op.Res → EmailCode Unit}
    (hx : w.runs[run]? = some (.step op k)) {applied : Bool} {res : op.Res} {v : EmailWorld}
    (hdrop : w.drop applied now op = some (res, v)) :
    EmailInv job { v with runs := w.runs.set run (k res) } := by
  have hquietRest (hrest : Quiet (k res)) (hsame : v.sends = w.sends)
      (hreaders : v.readers = w.readers) :
      EmailInv job { v with runs := w.runs.set run (k res) } := by
    refine hinv.advance hx (Or.inr (Or.inr hrest)) (by rw [hreaders]; exact hinv.once) ?_
    rw [hsame, hreaders, quiet_not_sending hrest]
    exact Nat.le_add_right _ _
  rcases hinv.staged _ (List.mem_of_getElem? hx) with
    hfresh | ⟨event, k', hsend, -⟩ | hquiet
  · rw [process_eq] at hfresh
    cases hfresh
    obtain ⟨rfl, rfl⟩ := Prod.mk.inj (Option.some.inj hdrop)
    exact hquietRest trivial rfl rfl
  · cases hsend
    cases hdrop
  · cases op with
    | findById id => exact hquiet.1.elim
    | markEmailSent id =>
        obtain ⟨rfl, rfl⟩ := Prod.mk.inj (Option.some.inj hdrop)
        exact hquietRest (hquiet.2 _) rfl rfl
    | log event => cases hdrop

theorem EmailInv.step (hinv : EmailInv job w) {a : EmailAction}
    (hsettled : w.readsSettled a = true) (hstep : w.step job a = some w') :
    EmailInv job w' := by
  cases a with
  | deliver =>
      rw [← Option.some.inj hstep]
      exact hinv.deliver
  | answer run now =>
      simp only [EmailWorld.step] at hstep
      split at hstep
      · rename_i op k hx
        rw [← Option.some.inj hstep]
        exact hinv.answer hx hsettled
      · cases hstep
  | fail run applied now =>
      simp only [EmailWorld.step] at hstep
      split at hstep
      · rename_i op k hx
        obtain ⟨⟨res, v⟩, hdrop, rfl⟩ := Option.map_eq_some_iff.mp hstep
        exact hinv.fail hx hdrop
      · cases hstep

end Steps

/-- The worker before the first delivery. -/
def EmailWorld.start (invitation : Option Invitation) : EmailWorld where
  invitation := invitation

/-- One step of the workers in which reads are settled. -/
def SettledStep (job : InvitationEmailJob) (w w' : EmailWorld) : Prop :=
  ∃ a, w.readsSettled a = true ∧ w.step job a = some w'

/-- Following a schedule step by step, as long as its reads are settled. -/
theorem settled_of_follow {job : InvitationEmailJob} {schedule : List EmailAction}
    {w w' : EmailWorld} (hfollow : w.follow job schedule = some w')
    (hsettled : w.settledAlong job schedule = true) :
    Relation.ReflTransGen (SettledStep job) w w' := by
  induction schedule generalizing w with
  | nil =>
      rw [← Option.some.inj hfollow]
  | cons a rest ih =>
      obtain ⟨v, hstep, hrest⟩ := Option.bind_eq_some_iff.mp hfollow
      rw [EmailWorld.settledAlong, hstep] at hsettled
      obtain ⟨hfirst, hlater⟩ := (Bool.and_eq_true _ _).mp hsettled
      exact Relation.ReflTransGen.head ⟨a, hfirst, hstep⟩ (ih hrest hlater)

/-- In every run in which each read of the row waits for the mark of an earlier
reader, the email is sent at most once, whichever calls fail. -/
theorem email_sent_at_most_once {job : InvitationEmailJob} {invitation : Option Invitation}
    {w : EmailWorld}
    (hrun : Relation.ReflTransGen (SettledStep job) (EmailWorld.start invitation) w) :
    w.sends ≤ 1 := by
  have hinv : EmailInv job w := by
    induction hrun with
    | refl =>
        constructor
        · intro x hx
          cases hx
        · exact Nat.zero_le 1
        · exact Nat.le_refl 0
    | tail _ hstep ih =>
        obtain ⟨a, hsettled, hstep⟩ := hstep
        exact ih.step hsettled hstep
  have hbalance := hinv.balance
  have honce := hinv.once
  omega

/-! ### Sample runs -/

def sampleJob : InvitationEmailJob where
  invitationId := 0
  recipientEmail := "s@school.org"
  courseTitle := "Maths"
  invitationUrl := "http://localhost:4200/#/onboard/I1"

def sampleInvitation : Invitation where
  purchaseId := 0
  tokenHash := "h"
  studentEmail := "s@school.org"
  status := .issued
  expiresAt := 1000
  redeemedAt := none
  emailSentAt := none

/-- A delivery and a redelivery after it. -/
def sampleRedelivery : List EmailAction :=
  [.deliver, .deliver, .answer 0 5, .answer 0 5, .answer 0 5, .answer 1 6, .answer 1 6]

theorem sample_email_sent_once : ∃ w,
    (EmailWorld.start (some sampleInvitation)).follow sampleJob sampleRedelivery = some w ∧
      w.log.length = 2 ∧ w.sends ≤ 1 := by
  have hsettled : (EmailWorld.start (some sampleInvitation)).settledAlong sampleJob
      sampleRedelivery = true := rfl
  refine ⟨_, rfl, rfl, ?_⟩
  exact email_sent_at_most_once (settled_of_follow rfl hsettled)

/-- Two workers that both read the row before either marks it send twice, and so
does the retry after a mark that failed. -/
theorem email_sent_twice :
    (∃ w, (EmailWorld.start (some sampleInvitation)).follow sampleJob
        [.deliver, .deliver, .answer 0 5, .answer 1 5, .answer 0 5, .answer 1 5,
          .answer 0 6, .answer 1 6] = some w ∧ w.sends = 2) ∧
      ∃ w, (EmailWorld.start (some sampleInvitation)).follow sampleJob
        [.deliver, .answer 0 5, .answer 0 5, .fail 0 false 5,
          .deliver, .answer 1 9, .answer 1 9, .answer 1 9] = some w ∧ w.sends = 2 :=
  ⟨⟨_, rfl, rfl⟩, _, rfl, rfl⟩

end Mes
