import Matrades.Worker.Execution

/-!
# What the guard accepts

`assert_command_authority` accepts a command exactly if the command fits its authorization, its plan,
the permissions and the two switches (`CommandAuthorized`); a dispatch asks it with the plan as stored
and with the permissions and switches of the moment.
-/

namespace Matrades

open Base

structure CommandAuthorized (now : Time) (command : ExecutionCommand)
    (authorization : ExecutionAuthorization) (plan : TradePlan)
    (permissions : ExecutionPermissionProfile) (platformKill accountKill : KillSwitchState) :
    Prop where
  account : command.accountId = authorization.accountId
  planAccount : command.accountId = plan.accountId
  bound : command.authorizationId = some authorization.id
  unexpired : now < authorization.expiresAt
  planUnexpired : command.action = .placeOrder → now < plan.expiresAt
  planState : plan.state ∈ allowedPlanStates command.action
  action : authorization.action = command.action
  risk : plan.risk.decision ≠ .hardBlock
  entry : entryDiffers command plan = false
  allowed : permissions.allows command.action = true
  platformOff : platformKill.active = false
  accountOff : accountKill.active = false
  platformEpoch : authorization.platformSafetyEpoch = platformKill.safetyEpoch
  accountEpoch : authorization.accountSafetyEpoch = accountKill.safetyEpoch

/-- **The guard accepts exactly the authorized commands.** -/
theorem assertCommandAuthority_ok_iff {now : Time} {command : ExecutionCommand}
    {authorization : ExecutionAuthorization} {plan : TradePlan}
    {permissions : ExecutionPermissionProfile} {platformKill accountKill : KillSwitchState} :
    assertCommandAuthority now command authorization plan permissions platformKill accountKill =
        .ok () ↔
      CommandAuthorized now command authorization plan permissions platformKill accountKill := by
  unfold assertCommandAuthority
  constructor
  · intro h
    obtain ⟨haccount, h⟩ := ok_of_guard h
    obtain ⟨hbound, h⟩ := ok_of_guard h
    obtain ⟨hexpired, h⟩ := ok_of_guard h
    obtain ⟨hstate, h⟩ := ok_of_guard h
    obtain ⟨haction, h⟩ := ok_of_guard h
    obtain ⟨hrisk, h⟩ := ok_of_guard h
    obtain ⟨hentry, h⟩ := ok_of_guard h
    obtain ⟨hallowed, h⟩ := ok_of_guard h
    obtain ⟨hkill, h⟩ := ok_of_guard h
    obtain ⟨hepoch, _⟩ := ok_of_guard h
    obtain ⟨hsame, hplan⟩ := not_or.1 haccount
    obtain ⟨hunexpired, hplanUnexpired⟩ := not_or.1 hexpired
    obtain ⟨hplatform, haccountKill⟩ := not_or.1 hkill
    obtain ⟨hplatformEpoch, haccountEpoch⟩ := not_or.1 hepoch
    refine ⟨not_not.1 hsame, not_not.1 hplan, not_not.1 hbound, not_le.1 hunexpired,
      fun hplace => not_le.1 fun hle => hplanUnexpired ⟨hplace, hle⟩, not_not.1 hstate,
      not_not.1 haction, hrisk, ?_, ?_, ?_, ?_, not_not.1 hplatformEpoch, not_not.1 haccountEpoch⟩
    · exact Bool.eq_false_of_not_eq_true hentry
    · exact Bool.eq_true_of_not_eq_false hallowed
    · exact Bool.eq_false_of_not_eq_true hplatform
    · exact Bool.eq_false_of_not_eq_true haccountKill
  · intro h
    have haccount : ¬(command.accountId ≠ authorization.accountId ∨
        command.accountId ≠ plan.accountId) := by simp [← h.account, ← h.planAccount]
    have hexpired : ¬(authorization.expiresAt ≤ now ∨
        (command.action = .placeOrder ∧ plan.expiresAt ≤ now)) := by
      rintro (hle | ⟨hplace, hle⟩)
      · exact absurd h.unexpired (not_lt.2 hle)
      · exact absurd (h.planUnexpired hplace) (not_lt.2 hle)
    have hkill : ¬(platformKill.active = true ∨ accountKill.active = true) := by
      simp [h.platformOff, h.accountOff]
    have hepoch : ¬(authorization.platformSafetyEpoch ≠ platformKill.safetyEpoch ∨
        authorization.accountSafetyEpoch ≠ accountKill.safetyEpoch) := by
      simp [h.platformEpoch, h.accountEpoch]
    rw [if_neg haccount, if_neg (not_not.2 h.bound), if_neg hexpired, if_neg (not_not.2 h.planState),
      if_neg (not_not.2 h.action), if_neg h.risk, if_neg (by simp [h.entry]),
      if_neg (by simp [h.allowed]), if_neg hkill, if_neg hepoch]

/-- What a dispatch reads before it sends. -/
theorem dispatchPlan_ok {now : Time} {db : Database} {ownerId : Uuid} {command : ExecutionCommand}
    {plan : Row Uuid TradePlanState TradePlan} {authorization : ExecutionAuthorization}
    (h : dispatchPlan now db ownerId command = .ok (plan, authorization)) :
    (∃ planId, command.tradePlanId = some planId ∧
        Table.get? db.tradePlans planId ownerId = some plan) ∧
      plan.data.authorization = some authorization ∧
      CommandAuthorized now command authorization plan.data
        (currentPermissions db ownerId command.accountId)
        (currentKillSwitches db ownerId command.accountId).1
        (currentKillSwitches db ownerId command.accountId).2 := by
  unfold dispatchPlan at h
  obtain ⟨planId, hid, h⟩ := ok_of_bind h
  obtain ⟨found, hfound, h⟩ := ok_of_bind h
  obtain ⟨granted, hgranted, h⟩ := ok_of_bind h
  obtain ⟨snapshot, _, h⟩ := ok_of_bind h
  obtain ⟨_, hguard, h⟩ := ok_of_bind h
  cases h
  exact ⟨⟨planId, orError_eq_ok.1 hid, orError_eq_ok.1 hfound⟩, orError_eq_ok.1 hgranted,
    assertCommandAuthority_ok_iff.1 hguard⟩

end Matrades
