import HeatingControl.Proofs.Controller.Integrity
import HeatingControl.Proofs.Text.Utf8

/-!
# Accounts during a run

There is one administrator in every state of a run, and it is named `admin`. Ids are distinct,
users have short names, and nobody has a blank password. A call that creates, deletes or changes
one account leaves the others alone.
-/
namespace HeatingControl

/-- A short word of ASCII letters and digits. -/
structure IsAccountName (name : String) : Prop where
  nonempty : 1 ≤ name.toList.length
  short : name.toList.length ≤ Limits.accountIdLength
  word : ∀ c ∈ name.toList, Text.isWordChar c = true

theorem isAccountName_of_validate {id : String} (h : validateAccountId id = .ok ()) :
    IsAccountName id := by
  unfold validateAccountId at h
  split at h
  · cases h
  · rename_i hne
    split at h
    · cases h
    · rename_i hbad
      rw [not_or, Nat.not_lt, not_not] at hbad
      obtain ⟨hsize, hword⟩ := hbad
      constructor
      · apply List.length_pos_iff.mpr
        intro hnil
        exact hne (String.toList_eq_nil_iff.mp hnil)
      · exact Nat.le_trans (Utf8.length_le id) hsize
      · exact List.all_eq_true.mp hword

theorem NewAccount.validate_ok {a : NewAccount} (h : a.validate = .ok ()) :
    IsAccountName a.id.text ∧ Text.allBlank a.password = false := by
  unfold validate at h
  split at h
  · cases h
  · rename_i hid
    split at h
    · cases h
    · rename_i hvisible
      exact ⟨isAccountName_of_validate hid, Bool.eq_false_iff.mpr hvisible⟩

theorem Text.visible_of_not_allBlank {s : String} (h : allBlank s = false) :
    ∃ c ∈ s.toList, isBlank c = false := by
  obtain ⟨c, hc, hvisible⟩ := List.all_eq_false.mp h
  exact ⟨c, hc, Bool.eq_false_iff.mpr hvisible⟩

/-- What the id of an account of a type may be. -/
def Account.Named (a : Account) : Prop :=
  match a.kind with
  | .admin => a.id = adminId
  | .user => IsAccountName a.id.text

namespace State

structure AccountsKept (s : State) : Prop where
  ids_distinct : (s.accounts.map (·.account.id)).Nodup
  fit : s.accounts.length ≤ Limits.accounts
  admin_listed : ∃ a ∈ s.accounts.map (·.account), a.kind = .admin
  named : ∀ a ∈ s.accounts.map (·.account), a.Named
  passwords_visible : ∀ a ∈ s.accounts, ∃ c ∈ a.password.toList, Text.isBlank c = false

section Keeping

variable {s : State}

theorem account?_eq_none_iff {id : AccountId} :
    s.account? id = none ↔ id ∉ s.accounts.map (·.account.id) := by
  simp [account?, List.find?_eq_none]

theorem account?_of_mem (hn : (s.accounts.map (·.account.id)).Nodup) {a : StoredAccount}
    (ha : a ∈ s.accounts) : s.account? a.account.id = some a :=
  Table.find?_of_mem hn ha

theorem AccountsKept.boot (h : AccountsKept s) (now : Nat) : AccountsKept (s.boot now) := by
  obtain ⟨_, _, _, _, _, hrecords⟩ := boot_records now s
  rw [hrecords]
  exact ⟨h.ids_distinct, h.fit, h.admin_listed, h.named, h.passwords_visible⟩

theorem Transition.preserves_accounts {u : State} (h : Transition s u) (hs : AccountsKept s) :
    AccountsKept u := by
  have ⟨hids, hfit, hadmin, hnamed, hvisible⟩ := hs
  cases h with
  | accountCreated account valid fresh room =>
    obtain ⟨hname, hpassword⟩ := NewAccount.validate_ok valid
    constructor
    · rw [List.map_append]
      apply Table.nodup_append_new hids
      exact account?_eq_none_iff.mp fresh
    · rw [List.length_append]
      exact room
    · obtain ⟨a, ha, hkind⟩ := hadmin
      rw [List.map_append]
      exact ⟨a, List.mem_append_left _ ha, hkind⟩
    · intro a ha
      rw [List.map_append] at ha
      rcases List.mem_append.mp ha with ha | ha
      · exact hnamed a ha
      · obtain rfl := List.mem_singleton.mp ha
        exact hname
    · intro a ha
      rcases List.mem_append.mp ha with ha | ha
      · exact hvisible a ha
      · obtain rfl := List.mem_singleton.mp ha
        exact Text.visible_of_not_allBlank hpassword
  | accountDeleted id deleted found deletable =>
    constructor
    · exact Table.nodup_map_filter hids _
    · exact Nat.le_trans (List.length_filter_le ..) hfit
    · -- What is deleted is no administrator, so the administrator is kept.
      obtain ⟨_, hmem, hkind⟩ := hadmin
      obtain ⟨a, ha, rfl⟩ := List.mem_map.mp hmem
      have hother : a.account.id ≠ id := by
        intro hid
        have hfound := account?_of_mem hids ha
        rw [hid, found, Option.some.injEq] at hfound
        subst hfound
        simp [Account.isDeletable, hkind] at deletable
      have hkept : a ∈ s.accounts.filter fun a => a.account.id ≠ id :=
        List.mem_filter.mpr ⟨ha, decide_eq_true hother⟩
      exact ⟨a.account, List.mem_map_of_mem hkept, hkind⟩
    · intro a ha
      obtain ⟨b, hb, rfl⟩ := List.mem_map.mp ha
      exact hnamed _ (List.mem_map_of_mem (List.mem_filter.mp hb).1)
    · intro a ha
      exact hvisible a (List.mem_filter.mp ha).1
  | passwordReset id password valid found =>
    have haccounts : (Table.updateFirst (fun a => a.account.id = id)
        (fun a => { a with password := password }) s.accounts).map (·.account) =
          s.accounts.map (·.account) := by
      apply Table.map_updateFirst
      intro a _
      rfl
    constructor
    · rw [Table.map_updateFirst]
      · exact hids
      · intro a _
        rfl
    · rw [Table.length_updateFirst]
      exact hfit
    · rw [haccounts]
      exact hadmin
    · rw [haccounts]
      exact hnamed
    · intro a ha
      rcases Table.mem_updateFirst ha with ha | ⟨b, _, _, rfl⟩
      · exact hvisible a ha
      · exact Text.visible_of_not_allBlank valid
  | _ => exact ⟨hids, hfit, hadmin, hnamed, hvisible⟩

private theorem seeded_accounts (now : Nat) : AccountsKept (.seeded now) := by
  have hids : (Seed.accounts.map (·.account.id)).Nodup := by decide
  have hfit : Seed.accounts.length ≤ Limits.accounts := by decide
  have hadmin : ∃ a ∈ Seed.accounts.map (·.account), a.kind = .admin := by decide
  have hvisible : ∀ a ∈ Seed.accounts, Text.allBlank a.password = false := by decide
  have hnamed : ∀ a ∈ Seed.accounts.map (·.account), a.Named := by
    intro a ha
    simp only [Seed.accounts, List.map_cons, List.map_nil, List.mem_cons, List.not_mem_nil,
      or_false] at ha
    rcases ha with rfl | rfl | rfl
    · rfl
    · exact isAccountName_of_validate rfl
    · exact isAccountName_of_validate rfl
  exact ⟨hids, hfit, hadmin, hnamed, fun a ha => Text.visible_of_not_allBlank (hvisible a ha)⟩

theorem Reachable.accounts {grace : Nat} (h : Reachable grace s) : AccountsKept s := by
  apply And.right
  apply h.invariant
  · exact seeded_accounts
  · intro s now hs
    exact hs.boot now
  · intro s u _ hu hs
    exact hu.preserves_accounts hs

end Keeping

section Administrator

variable {s : State}

/-- All administrators have one id, and ids are distinct. -/
theorem AccountsKept.one_admin (hs : AccountsKept s) :
    ∃ password, s.accounts.filter (fun a => a.account.kind = .admin) =
      [⟨⟨Account.adminId, .admin⟩, password⟩] := by
  have hname : ∀ a ∈ s.accounts, a.account.kind = .admin → a.account.id = Account.adminId := by
    intro a ha hkind
    have hnamed := hs.named a.account (List.mem_map_of_mem ha)
    rwa [Account.Named, hkind] at hnamed
  obtain ⟨_, hmem, hkind⟩ := hs.admin_listed
  obtain ⟨a, ha, rfl⟩ := List.mem_map.mp hmem
  have hadmins : ∀ b ∈ s.accounts.filter (fun a => a.account.kind = .admin), b = a := by
    intro b hb
    obtain ⟨hb, hbkind⟩ := List.mem_filter.mp hb
    have hfound := account?_of_mem hs.ids_distinct hb
    rw [hname b hb (of_decide_eq_true hbkind), ← hname a ha hkind,
      account?_of_mem hs.ids_distinct ha] at hfound
    exact (Option.some.inj hfound).symm
  have hsame := List.eq_replicate_of_mem hadmins
  have hatMost : (s.accounts.filter fun a => a.account.kind = .admin).length ≤ 1 := by
    have hdistinct := Table.nodup_map_filter hs.ids_distinct fun a => a.account.kind = .admin
    rw [hsame, List.map_replicate] at hdistinct
    exact List.nodup_replicate.mp hdistinct
  have hatLeast : 0 < (s.accounts.filter fun a => a.account.kind = .admin).length :=
    List.length_pos_of_mem (List.mem_filter.mpr ⟨ha, decide_eq_true hkind⟩)
  have hone : (s.accounts.filter fun a => a.account.kind = .admin).length = 1 := by omega
  rw [hsame, hone]
  have hadmin : a.account = ⟨Account.adminId, .admin⟩ := by
    rw [← hname a ha hkind, ← hkind]
  exact ⟨a.password, by rw [← hadmin]; rfl⟩

theorem AccountsKept.hasAdministrator (hs : AccountsKept s) :
    HeatingControl.hasAdministrator (s.accounts.map (·.account)) = true := by
  obtain ⟨a, ha, hkind⟩ := hs.admin_listed
  have hnamed := hs.named a ha
  rw [Account.Named, hkind] at hnamed
  exact List.any_eq_true.mpr ⟨a, ha, decide_eq_true hnamed⟩

end Administrator

/-- The accounts of other ids are what they were, in the same order. -/
def OthersKept (id : AccountId) (s u : State) : Prop :=
  u.accounts.filter (fun a => a.account.id ≠ id) = s.accounts.filter fun a => a.account.id ≠ id

section Changes

variable {s : State}

theorem createAccount_ok {account : NewAccount} (h : (createAccount account s).1 = .ok ()) :
    OthersKept account.id s (createAccount account s).2 ∧ s.account? account.id = none ∧
      (createAccount account s).2.account? account.id =
        some ⟨⟨account.id, .user⟩, account.password⟩ := by
  unfold createAccount at h ⊢
  split at h
  · cases h
  · split at h
    · cases h
    · rename_i hfresh
      split at h
      · cases h
      · rename_i hroom
        rw [if_neg hfresh, if_neg hroom]
        rw [Option.not_isSome_iff_eq_none] at hfresh
        refine ⟨?_, hfresh, ?_⟩
        · simp [OthersKept, List.filter_append]
        · rw [account?] at hfresh ⊢
          simp [List.find?_append, hfresh]

theorem deleteAccount_ok {id : AccountId} (h : (deleteAccount id s).1 = .ok ()) :
    OthersKept id s (deleteAccount id s).2 ∧ (deleteAccount id s).2.account? id = none := by
  unfold deleteAccount at h ⊢
  split at h
  · cases h
  · split at h
    · rename_i hdeletable
      rw [if_pos hdeletable]
      constructor
      · simp [OthersKept, List.filter_filter]
      · rw [account?_eq_none_iff]
        intro hid
        obtain ⟨a, ha, hsame⟩ := List.mem_map.mp hid
        exact of_decide_eq_true (List.mem_filter.mp ha).2 hsame
    · cases h

theorem resetPassword_ok {id : AccountId} {reset : PasswordReset}
    (h : (resetPassword id reset s).1 = .ok ()) :
    OthersKept id s (resetPassword id reset s).2 ∧
      ∃ a, s.account? id = some a ∧
        (resetPassword id reset s).2.account? id = some { a with password := reset.password } := by
  unfold resetPassword at h ⊢
  split at h
  · cases h
  · rename_i hmake
    obtain ⟨rfl, -⟩ := PasswordReset.make_ok hmake
    dsimp only at h ⊢
    split at h
    · rename_i hlisted
      rw [if_pos hlisted]
      obtain ⟨a, ha⟩ := Option.isSome_iff_exists.mp hlisted
      constructor
      · apply Table.filter_updateFirst
        intro b hb
        have hid : b.account.id = id := of_decide_eq_true hb
        simp [hid]
      · refine ⟨a, ha, ?_⟩
        rw [account?, Table.find?_updateFirst]
        · exact congrArg (Option.map _) ha
        · intro b hb
          exact hb
    · cases h

theorem OthersKept.of_boot {id : AccountId} {now : Nat} {u : State}
    (h : OthersKept id (s.boot now) u) : OthersKept id s u := by
  obtain ⟨_, _, _, _, _, hrecords⟩ := boot_records now s
  rw [hrecords] at h
  exact h

theorem account?_boot (now : Nat) (id : AccountId) : (s.boot now).account? id = s.account? id := by
  obtain ⟨_, _, _, _, _, hrecords⟩ := boot_records now s
  rw [hrecords]
  rfl

end Changes

/-- In every state of a run the accounts are kept and exactly one is an administrator, the one
named `admin`; so the list of accounts that is answered always has the administrator. An account
that is created, deleted or given a password is the only one that changes, and the password that
is stored is the one that was given. -/
theorem run_keeps_accounts {grace : Nat} {s : State} (h : Reachable grace s) :
    AccountsKept s ∧
    (∃ password, s.accounts.filter (fun a => a.account.kind = .admin) =
      [⟨⟨Account.adminId, .admin⟩, password⟩]) ∧
    hasAdministrator (s.accounts.map (·.account)) = true ∧
    ∀ t : Moment,
      (∀ accounts, (step grace t (.operation .getAccounts) s).1 = .ok accounts →
        accounts = s.accounts.map (·.account) ∧ hasAdministrator accounts = true) ∧
      (∀ account, (step grace t (.operation (.createAccount account)) s).1 = .ok () →
        let u := (step grace t (.operation (.createAccount account)) s).2
        OthersKept account.id s u ∧ s.account? account.id = none ∧
          u.account? account.id = some ⟨⟨account.id, .user⟩, account.password⟩) ∧
      (∀ id, (step grace t (.operation (.deleteAccount id)) s).1 = .ok () →
        let u := (step grace t (.operation (.deleteAccount id)) s).2
        OthersKept id s u ∧ u.account? id = none) ∧
      ∀ id reset, (step grace t (.operation (.resetPassword id reset)) s).1 = .ok () →
        let u := (step grace t (.operation (.resetPassword id reset)) s).2
        OthersKept id s u ∧ ∃ a, s.account? id = some a ∧
          u.account? id = some { a with password := reset.password } := by
  have hs := h.accounts
  refine ⟨hs, hs.one_admin, hs.hasAdministrator, ?_⟩
  intro t
  refine ⟨?_, ?_, ?_, ?_⟩
  · intro accounts hok
    have honline := onlineAt_of_ok hok
    obtain ⟨_, _, _, _, _, hrecords⟩ := boot_records t.now s
    rw [step_of_online honline, hrecords] at hok
    obtain rfl : s.accounts.map (·.account) = accounts := Except.ok.inj hok
    exact ⟨rfl, hs.hasAdministrator⟩
  · intro account hok
    have honline := onlineAt_of_ok hok
    rw [step_of_online honline] at hok ⊢
    obtain ⟨hothers, hfresh, hstored⟩ := createAccount_ok hok
    rw [account?_boot] at hfresh
    exact ⟨hothers.of_boot, hfresh, hstored⟩
  · intro id hok
    have honline := onlineAt_of_ok hok
    rw [step_of_online honline] at hok ⊢
    obtain ⟨hothers, hgone⟩ := deleteAccount_ok hok
    exact ⟨hothers.of_boot, hgone⟩
  · intro id reset hok
    have honline := onlineAt_of_ok hok
    rw [step_of_online honline] at hok ⊢
    obtain ⟨hothers, a, hbefore, hafter⟩ := resetPassword_ok hok
    rw [account?_boot] at hbefore
    exact ⟨hothers.of_boot, a, hbefore, hafter⟩

/-- A user is created with blanks around the password, another one is deleted, the administrator
gets a password: the first keeps the blanks and the others keep their accounts. The administrator
is not deleted. -/
theorem lea_replaces_nico :
    let t : Moment := ⟨0, ⟨.monday, 8, 0⟩⟩
    let create : Call := .operation (.createAccount ⟨⟨"lea"⟩, " pass word "⟩)
    let delete : Call := .operation (.deleteAccount ⟨"nico"⟩)
    let reset : Call := .operation (.resetPassword Account.adminId ⟨"secret"⟩)
    let s := (step 10 t create (seeded 0)).2
    let u := (step 10 t delete s).2
    let v := (step 10 t reset u).2
    Reachable 10 v ∧ AccountsKept v ∧ hasAdministrator (v.accounts.map (·.account)) = true ∧
      s.account? ⟨"lea"⟩ = some ⟨⟨⟨"lea"⟩, .user⟩, " pass word "⟩ ∧
      OthersKept ⟨"lea"⟩ (seeded 0) s ∧
      u.account? ⟨"nico"⟩ = none ∧ OthersKept ⟨"nico"⟩ s u ∧
      v.account? Account.adminId = some ⟨⟨Account.adminId, .admin⟩, "secret"⟩ ∧
      OthersKept Account.adminId u v ∧
      (step 10 t (.operation (.deleteAccount Account.adminId)) v).2 = v := by
  intro t create delete reset s u v
  have hs : Reachable 10 s := .step t create (.seeded 0)
  have hu : Reachable 10 u := .step t delete hs
  have hv : Reachable 10 v := .step t reset hu
  obtain ⟨-, -, -, hseeded⟩ := run_keeps_accounts (.seeded 0 : Reachable 10 (seeded 0))
  obtain ⟨-, -, -, hcreated⟩ := run_keeps_accounts hs
  obtain ⟨-, -, -, hdeleted⟩ := run_keeps_accounts hu
  obtain ⟨haccounts, -, hadmin, -⟩ := run_keeps_accounts hv
  obtain ⟨hothers, -, hstored⟩ := (hseeded t).2.1 ⟨⟨"lea"⟩, " pass word "⟩ rfl
  obtain ⟨hothers', hgone⟩ := (hcreated t).2.2.1 ⟨"nico"⟩ rfl
  obtain ⟨hothers'', a, hbefore, hafter⟩ := (hdeleted t).2.2.2 Account.adminId ⟨"secret"⟩ rfl
  obtain rfl : ⟨⟨Account.adminId, .admin⟩, "admin"⟩ = a := Option.some.inj hbefore
  exact ⟨hv, haccounts, hadmin, hstored, hothers, hgone, hothers', hafter, hothers'', rfl⟩

end State
end HeatingControl
