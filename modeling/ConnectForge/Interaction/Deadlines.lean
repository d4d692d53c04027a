import Mathlib.Algebra.Order.Group.Multiset
import ConnectForge.Interaction.Ledger
import ConnectForge.Interaction.Loop
import ConnectForge.Interaction.Tasks

namespace ConnectForge.Interaction

/-! Calls with a deadline.  Whoever makes a call and gets no answer in time goes on
without one, while the call itself may still be carried out later. -/

variable {Call : Type} {Answer : Call → Type} {α β World Memo Entry κ : Type}

/-- The program, ended with a value of its own by the first call that gets no
answer. -/
def Program.expiring (expired : α) :
    Program Call Answer α → Program Call (fun request => Option (Answer request)) α
  | .done value => .done value
  | .call request resume =>
      .call request fun answer => answer.elim (.done expired) fun answer => (resume answer).expiring expired

@[simp] theorem Program.expiring_done (expired value : α) :
    (.done value : Program Call Answer α).expiring expired = .done value := rfl

@[simp] theorem Program.expiring_call (expired : α) (request : Call)
    (resume : Answer request → Program Call Answer α) :
    (Program.call request resume).expiring expired = .call request fun answer =>
      answer.elim (.done expired) fun answer => (resume answer).expiring expired := rfl

/-- A deadline can be kept part by part, if what follows a part returns its expiry
at once. -/
theorem Program.expiring_bind {part : Program Call Answer α} {next : α → Program Call Answer β}
    {expired : α} {expired' : β} (returns : next expired = .done expired') :
    (part >>= next).expiring expired' =
      part.expiring expired >>= fun value => (next value).expiring expired' := by
  induction part with
  | done value => rfl
  | call request resume ih =>
      rw [call_bind, Program.expiring_call, Program.expiring_call, call_bind]
      congr 1
      funext answer
      cases answer with
      | none => rw [Option.elim_none, Option.elim_none, done_bind, returns, Program.expiring_done]
      | some answer => exact ih answer

section Protocols

variable {permits permits' : Memo → Call → Prop} {note : Memo → (request : Call) → Answer request → Memo}
  {ends : α → Memo → Prop} {memo : Memo}

/-- What a task remembers of a call, answered or not. -/
def noteLate (note : Memo → (request : Call) → Answer request → Memo) (lost : Memo → Call → Memo)
    (memo : Memo) (request : Call) : Option (Answer request) → Memo
  | none => lost memo request
  | some answer => note memo request answer

theorem Program.Follows.expiring {lost : Memo → Call → Memo} {expired : α} {program : Program Call Answer α}
    (follows : program.Follows permits note ends memo)
    (cuts : ∀ memo request, permits memo request → ends expired (lost memo request)) :
    (program.expiring expired).Follows permits (noteLate note lost) ends memo := by
  induction program generalizing memo with
  | done value => exact follows
  | call request resume ih =>
      rw [Program.expiring_call]
      refine ⟨follows.1, ?_⟩
      rintro (_ | answer)
      · exact cuts memo request follows.1
      · exact ih answer (follows.2 answer)

theorem Program.Follows.imp {program : Program Call Answer α}
    (follows : program.Follows permits note ends memo)
    (weaker : ∀ memo request, permits memo request → permits' memo request) :
    program.Follows permits' note ends memo := by
  induction program generalizing memo with
  | done value => exact follows
  | call request resume ih =>
      exact ⟨weaker memo request follows.1, fun answer => ih answer (follows.2 answer)⟩

end Protocols

section Accounts

/-! Accounts that others leave level. -/

variable {M : Type} [AddCancelCommMonoid M] {others : World → World → Prop}
  {answers : (request : Call) → World → Answer request → World → Prop}
  {note : Memo → (request : Call) → Answer request → Memo} {fresh : Memo}
  {starts : Program Call Answer α → Prop} {permits : Memo → Call → Prop} {ends : α → Memo → Prop}
  {charged paid : World → M} {owes : Memo → M}

theorem Ledger.amid
    (ledger : Ledger answers note fresh starts (fun _ _ _ => True) permits ends charged paid owes)
    (level : ∀ {world moved}, others world moved →
      charged moved + paid world = charged world + paid moved) :
    Ledger (Amid others answers) note fresh starts (fun _ _ _ => True) permits ends charged paid owes where
  follows := ledger.follows
  fresh := ledger.fresh
  step := by
    rintro world after memo request answer permitted met ⟨moved, moves, answered⟩
    apply add_right_cancel (b := paid moved + charged moved)
    calc charged after + paid world + owes memo + (paid moved + charged moved)
        = charged after + paid moved + owes memo + (charged moved + paid world) := by abel
      _ = charged moved + paid after + owes (note memo request answer) + (charged world + paid moved) := by
          rw [ledger.step permitted met answered, level moves]
      _ = charged world + paid after + owes (note memo request answer) + (paid moved + charged moved) := by
          abel

theorem balance_moves {world final : World} {owed : M}
    (level : charged final + paid world = charged world + paid final)
    (balanced : charged world = paid world + owed) : charged final = paid final + owed := by
  apply add_right_cancel (b := paid world)
  rw [level, balanced]
  abel

end Accounts

/-- A world with the calls in it that their callers have given up.  The last two
fields are its history. -/
structure Backlog (World Call Entry : Type) where
  world : World
  jobs : List Call
  /-- Every call that was given up. -/
  cut : List Call
  /-- What calls have done after they were given up. -/
  overdue : List Entry

namespace Backlog

def fresh (world : World) : Backlog World Call Entry := ⟨world, [], [], []⟩

variable (answers : (request : Call) → World → Answer request → World → Prop) (expires : Call → Prop)
  (entries : (request : Call) → Answer request → List Entry)

inductive Answers : (request : Call) → Backlog World Call Entry → Option (Answer request) →
    Backlog World Call Entry → Prop where
  | inTime {request world answer after jobs cut overdue} (answered : answers request world answer after) :
      Answers request ⟨world, jobs, cut, overdue⟩ (some answer) ⟨after, jobs, cut, overdue⟩
  | expired {request world jobs cut overdue} (may : expires request) :
      Answers request ⟨world, jobs, cut, overdue⟩ none ⟨world, request :: jobs, request :: cut, overdue⟩

/-- A call that was given up is carried out, or dropped. -/
inductive Works : Backlog World Call Entry → Backlog World Call Entry → Prop where
  | done {request world answer after before rest cut overdue} (may : expires request)
      (answered : answers request world answer after) :
      Works ⟨world, before ++ request :: rest, cut, overdue⟩
        ⟨after, before ++ rest, cut, overdue ++ entries request answer⟩
  | dropped {request world before rest cut overdue} :
      Works ⟨world, before ++ request :: rest, cut, overdue⟩ ⟨world, before ++ rest, cut, overdue⟩

def Later : Backlog World Call Entry → Backlog World Call Entry → Prop :=
  Relation.ReflTransGen (Works answers expires entries)

/-- Others at work, on what was given up and on calls of their own. -/
def Others : Backlog World Call Entry → Backlog World Call Entry → Prop :=
  Relation.ReflTransGen fun late moved => Works answers expires entries late moved ∨
    ∃ request answer, Answers answers expires request late answer moved

variable {answers expires entries} {late moved final : Backlog World Call Entry}

/-- From within the world, calls are made by others, whether in time or not. -/
theorem Others.world (moves : Others answers expires entries late moved) :
    Relation.ReflTransGen (fun world after => ∃ request answer, answers request world answer after)
      late.world moved.world := by
  induction moves with
  | refl => exact .refl
  | tail _ step ih =>
      rcases step with works | ⟨request, answer, answered⟩
      · cases works with
        | done _ answered => exact ih.tail ⟨_, _, answered⟩
        | dropped => exact ih
      · cases answered with
        | inTime answered => exact ih.tail ⟨_, _, answered⟩
        | expired _ => exact ih

/-- A program that ends with another value than its expiry has not met a deadline:
it has run as one among others that knows of none. -/
theorem ends_of_expiring {expired value : α} {program : Program Call Answer α}
    (ended : Ends (Amid (Others answers expires entries) (Answers answers expires))
      (program.expiring expired) late value final) (other : value ≠ expired) :
    Ends (Amid (Relation.ReflTransGen fun world after => ∃ request answer, answers request world answer after)
      answers) program late.world value final.world := by
  induction program generalizing late with
  | done result =>
      obtain ⟨rfl, rfl⟩ := ends_done ended
      exact .done
  | call request resume ih =>
      rw [Program.expiring_call] at ended
      obtain ⟨answer, after, ⟨moved, moves, answered⟩, rest⟩ := ends_call ended
      cases answered with
      | inTime answered => exact .call ⟨_, moves.world, answered⟩ (ih _ rest)
      | expired _ => exact absurd (ends_done rest).1 other

/-- A program whose calls are all answered in time ends as it would without
deadlines. -/
theorem ends_in_time {expired value : α} {program : Program Call Answer α} {world after : World}
    {jobs cut : List Call} {overdue : List Entry} (ended : Ends answers program world value after) :
    Ends (Answers answers expires) (program.expiring expired) ⟨world, jobs, cut, overdue⟩ value
      ⟨after, jobs, cut, overdue⟩ := by
  induction ended with
  | done => exact .done
  | call answered _ ih => exact .call (.inTime answered) ih

section Tallies

/-! What is left to do and what was done late never come to more than what was
given up. -/

def Covered (charge : Call → Multiset κ) (tally : Entry → κ) (late : Backlog World Call Entry) : Prop :=
  (late.overdue.map tally : Multiset κ) + (late.jobs.map charge).sum ≤ (late.cut.map charge).sum

variable {charge : Call → Multiset κ} {tally : Entry → κ}

theorem Covered.fresh (world : World) :
    (fresh world : Backlog World Call Entry).Covered charge tally := le_refl _

theorem Covered.works
    (bounded : ∀ request answer, ((entries request answer).map tally : Multiset κ) ≤ charge request)
    (covered : late.Covered charge tally) (works : Works answers expires entries late moved) :
    moved.Covered charge tally := by
  unfold Covered at covered ⊢
  cases works with
  | @done request world answer after before rest cut overdue may answered =>
      simp only [List.map_append, List.map_cons, List.sum_append, List.sum_cons] at covered ⊢
      apply le_trans _ covered
      rw [← Multiset.coe_add, add_assoc]
      apply add_le_add_right
      calc _ ≤ charge request + ((before.map charge).sum + (rest.map charge).sum) :=
            add_le_add_left (bounded request answer) _
        _ = _ := by rw [add_left_comm]
  | @dropped request world before rest cut overdue =>
      simp only [List.map_append, List.map_cons, List.sum_append, List.sum_cons] at covered ⊢
      apply le_trans _ covered
      exact add_le_add_right (add_le_add_right (Multiset.le_add_left _ _) _) _

theorem Covered.later
    (bounded : ∀ request answer, ((entries request answer).map tally : Multiset κ) ≤ charge request)
    (covered : late.Covered charge tally) (later : Later answers expires entries late moved) :
    moved.Covered charge tally := by
  induction later with
  | refl => exact covered
  | tail _ works ih => exact ih.works bounded works

theorem Covered.call {request : Call} {answer : Option (Answer request)}
    (covered : late.Covered charge tally) (answered : Answers answers expires request late answer moved) :
    moved.Covered charge tally := by
  unfold Covered at covered ⊢
  cases answered with
  | inTime _ => exact covered
  | expired _ =>
      simp only [List.map_cons, List.sum_cons]
      rw [add_left_comm]
      exact add_le_add_right covered _

end Tallies

end Backlog

end ConnectForge.Interaction
