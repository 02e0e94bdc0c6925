import OpenLambda.Lambda.CodeDirs
import OpenLambda.Lambda.Handoffs

namespace OpenLambda.Lambda
open Foundation.Runs

def System.Answered (s : System) (r : Nat) : Prop := ∃ answer ∈ s.written, answer.id = r

-- The client of `r` was signalled, or nothing but channels is left in between.
inductive Due (s : System) (r : Nat) : Prop where
  | signalled : r ∈ s.signalled → Due s r
  | done : r ∈ ids s.doneChan → Due s r
  | signalling : s.pc = .signalling req more → req.id = r → Due s r
  | reporting : i < s.nextInst → (s.inst i).pc = .reporting req failed → req.id = r → Due s r

theorem wrote_answered (s : System) (answer : Written) : (s.write answer).Answered answer.id :=
  ⟨answer,List.mem_append_right _ (List.mem_singleton.mpr rfl),rfl⟩

theorem later_answered {s t : System} (grown : t.written = s.written ++ more) (answered : s.Answered r) : t.Answered r := by
  obtain ⟨answer,member,same⟩ := answered
  exact ⟨answer,grown ▸ List.mem_append_left _ member,same⟩

theorem turn_written (turn : Turn conf s action t) : ∃ more, t.written = s.written ++ more := by
  cases turn with
  | refused | pullFailed | pullDirtied | checkRefused | overflowed | acted => exact ⟨_,rfl⟩
  | _ => exact ⟨[],(List.append_nil _).symm⟩

theorem localStep_reports (moved : localStep zygotes fresh l action = some out) (here : out.inst.pc = .reporting req failed) :
    l.pc = .reporting req failed ∨ ∃ answer ∈ out.written, answer.id = req.id := by
  cases localStep_turn moved with
  | @tripped _ _ outcome _ there present =>
      right
      cases outcome with
      | badRequest err debug =>
          cases here
          exact ⟨_,List.mem_singleton.mpr rfl,rfl⟩
      | failed err debug =>
          obtain ⟨same,_⟩ := destroySb_keeps {l.call (.forward _ _) with pc := .reporting _ false}
            "Sandbox's HTTP client returned an error"
          cases same.symm.trans here
          exact ⟨_,List.mem_singleton.mpr rfl,rfl⟩
      | replied status body copyErr =>
          cases here
          exact ⟨_,List.mem_cons_self,rfl⟩
  | createFailed there =>
      cases here
      exact .inr ⟨_,List.mem_singleton.mpr rfl,rfl⟩
  | pausePanicked => exact .inl here
  | tookKill | unpaused | unpauseFailed | zygoteCreated | zygoteFailed | created | settled | discarded | sawKill | sawNone
  | paused | pauseFailed | destroyed => cases here

theorem put_due {s t : System} (i : Nat) (l : LambdaInstance) (inst : t.inst = (s.put i l).inst)
    (nextInst : t.nextInst = s.nextInst) (pc : t.pc = s.pc) (signalled : t.signalled = s.signalled)
    (done : ∀ r, r ∈ ids t.doneChan → Due s r) (new : ∀ req failed, l.pc = .reporting req failed → Due s req.id ∨ t.Answered req.id)
    (due : Due t r) : Due s r ∨ t.Answered r := by
  cases due with
  | signalled member => exact .inl (.signalled (signalled ▸ member))
  | done member => exact .inl (done r member)
  | signalling here same => exact .inl (.signalling (pc ▸ here) same)
  | @reporting j req failed born here same =>
      rw [inst] at here
      by_cases equal : j = i
      · subst j
        rw [← same]
        exact new req failed (by simpa [System.put] using here)
      · exact .inl (.reporting (nextInst ▸ born) (by simpa [System.put,equal] using here) same)

theorem task_due {s t : System} (inst : ∀ i, i < t.nextInst → ∀ req failed, (t.inst i).pc = .reporting req failed →
      Due s req.id) (signalled : ∀ r, r ∈ t.signalled → Due s r) (done : ∀ r, r ∈ ids t.doneChan → Due s r)
    (hand : ∀ req more, t.pc = .signalling req more → Due s req.id ∨ t.Answered req.id) (due : Due t r) :
    Due s r ∨ t.Answered r := by
  cases due with
  | signalled member => exact .inl (signalled r member)
  | done member => exact .inl (done r member)
  | signalling here same => exact same ▸ hand _ _ here
  | reporting born here same => exact .inl (same ▸ inst _ born _ _ here)

theorem moved_due {s t : System} (inst : ∀ i, i < t.nextInst → ∀ req failed, (t.inst i).pc = .reporting req failed →
      Due s req.id) (signalled : t.signalled = s.signalled) (done : t.doneChan = s.doneChan)
    (hand : ∀ req more, t.pc = .signalling req more → Due s req.id ∨ t.Answered req.id) (due : Due t r) :
    Due s r ∨ t.Answered r :=
  task_due inst (fun _ member => .signalled (signalled ▸ member)) (fun _ member => .done (done ▸ member)) hand due

theorem sent_due (s : System) (i j : Nat) (born : j < s.nextInst) (here : ((s.sentKill i).inst j).pc = .reporting req failed) :
    Due s req.id :=
  .reporting born (sentKill_pc s i j ▸ here) rfl

theorem turn_due (turn : Turn conf s action t) (due : Due t r) : Due s r ∨ t.Answered r := by
  have same : ∀ i, i < s.nextInst → ∀ req failed, (s.inst i).pc = .reporting req failed → Due s req.id :=
    fun i born req failed here => .reporting born here rfl
  cases turn with
  | @signalled req more here =>
      refine task_due same ?_ (fun _ member => .done member) ?_ due
      · intro r member
        rcases List.mem_append.mp member with old | new
        · exact .signalled old
        · exact .signalling here (List.mem_singleton.mp new).symm
      · intro other more there
        split at there <;> cases there
  | @finished req rest here waiting =>
      refine task_due same (fun _ member => .signalled member) ?_ ?_ due
      · intro r member
        exact .done (by rw [waiting]; exact List.mem_cons_of_mem _ member)
      · intro other more there
        cases there
        exact .inl (.done (by rw [waiting]; exact List.mem_cons_self))
  | pullFailed here | pullDirtied here | checkRefused here | overflowed here =>
      refine moved_due same rfl rfl ?_ due
      intro other more there
      cases there
      exact .inr (wrote_answered s _)
  | switchKill | dyingKill | shrunk =>
      refine moved_due (fun j born _ _ => sent_due s _ j born) rfl rfl ?_ due
      intro other more there
      cases there
  | grown here =>
      refine moved_due ?_ rfl rfl ?_ due
      · intro i born req failed there
        by_cases equal : i = s.nextInst
        · subst i
          simp [System.adjusted,System.put,newLambdaInstance] at there
        · have older : i < s.nextInst := Nat.lt_of_le_of_ne (Nat.lt_succ_iff.mp born) equal
          exact same i older req failed (by simpa [System.adjusted,System.put,equal] using there)
      · intro other more there
        cases there
  | acted born stepped =>
      refine put_due _ _ rfl rfl rfl rfl (fun _ member => .done member) ?_ due
      intro req failed there
      rcases localStep_reports stepped there with old | ⟨answer,member,id⟩
      · exact .inl (.reporting born old rfl)
      · exact .inr ⟨answer,List.mem_append_right _ member,id⟩
  | @reported i req failed born here =>
      refine put_due _ _ rfl rfl rfl rfl ?_ ?_ due
      · intro r member
        have parts : ids (s.doneChan ++ [req]) = ids s.doneChan ++ [req.id] := List.map_append
        rcases List.mem_append.mp (parts ▸ member) with old | new
        · exact .done old
        · exact .reporting born here (List.mem_singleton.mp new).symm
      · intro other failed there
        simp only [LambdaInstance.report] at there
        split at there <;> cases there
  | taken | grabbed | idled =>
      refine put_due _ _ rfl rfl rfl rfl (fun _ member => .done member) ?_ due
      intro other failed there
      simp only [LambdaInstance.accept,LambdaInstance.grab] at there
      split at there <;> cases there
  | acked =>
      refine put_due _ _ rfl rfl rfl rfl (fun _ member => .done member) ?_ due
      intro other failed there
      cases there
  | queued here =>
      refine moved_due same rfl rfl ?_ due
      intro other more there
      rcases message_coded here with ⟨_,_,_,_,_,rfl⟩ | ⟨_,_,_,rfl⟩ | ⟨_,_,_,rfl⟩ <;> cases there
  | timer =>
      refine moved_due same rfl rfl ?_ due
      intro other more there
      dsimp only at there
      split at there <;> cases there
  | invoked | refused | ticked | checkPanicked | askedKill | removed | awaited =>
      exact moved_due same rfl rfl (fun _ _ there => .inl (.signalling there rfl)) due
  | received | pullKept | pullSwitched | checkSwitch | checkKept | switchEnd | dyingEnd | dispatched | limited
  | growPanicked | balanced | scaledDown | takenKill | exited =>
      refine moved_due same rfl rfl ?_ due
      intro other more there
      cases there

theorem turn_answered (answered : ∀ r, Due s r → s.Answered r) (turn : Turn conf s action t) (due : Due t r) : t.Answered r := by
  obtain ⟨more,grown⟩ := turn_written turn
  rcases turn_due turn due with before | now
  · exact later_answered grown (answered r before)
  · exact now

theorem reached_answered (ran : run (step conf) init actions = some s) (member : r ∈ s.signalled) : s.Answered r := by
  have start : ∀ r, Due init r → init.Answered r := by
    intro r due
    cases due with
    | signalled member | done member => cases member
    | signalling here => cases here
    | reporting born => cases born
  have all := run_preserves (fun s => ∀ r, Due s r → s.Answered r)
    (fun _ _ _ answered moved _ due => turn_answered answered (step_turn moved).2 due) start ran
  exact all r (.signalled member)

end OpenLambda.Lambda
