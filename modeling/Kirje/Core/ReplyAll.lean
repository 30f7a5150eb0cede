import Kirje.Core.Draft

/-
  File:      Kirje/Core/ReplyAll.lean
  Subject:   Whom a reply to all is sent to (crates/kirje-core/src/operation.rs).

  `reply_all_to` and `reply_all_cc` each drop the account itself and every address
  they saw before; neither knows what the other one saw.  Together they keep every
  address of the source once exactly when no sender is also a recipient.

  * `mem_keys_unseen`, `keys_unseen_nodup`: what one pass keeps.
  * `reply_all_iff`: the recipients of an accepted reply to all.
-/

namespace Kirje

open Base

/-! ## 1. One pass -/

/-- The form in which addresses are compared. -/
def MailAddress.key (a : MailAddress) : String := toAsciiLowercase a.email

/-- **One pass keeps every key that was not seen before.** -/
theorem mem_keys_unseen {key : String} {l : List MailAddress} {seen : List String} :
    key ∈ (unseen seen l).map MailAddress.key ↔ key ∈ l.map MailAddress.key ∧ key ∉ seen := by
  induction l generalizing seen with
  | nil => simp [unseen]
  | cons a rest ih =>
      unfold unseen
      by_cases ha : toAsciiLowercase a.email ∈ seen
      · rw [if_pos ha, ih, List.map_cons, List.mem_cons]
        by_cases hk : key = a.key
        · have hseen : key ∈ seen := hk ▸ ha
          simp [hseen]
        · simp [hk]
      · rw [if_neg ha, List.map_cons, List.mem_cons, ih, List.map_cons, List.mem_cons, List.mem_cons]
        by_cases hk : key = a.key
        · have hnew : key ∉ seen := hk ▸ ha
          simp [hk, hk ▸ hnew]
        · have hne : key ≠ toAsciiLowercase a.email := hk
          simp [hk, hne]

/-- No key is kept twice. -/
theorem keys_unseen_nodup (l : List MailAddress) (seen : List String) :
    ((unseen seen l).map MailAddress.key).Nodup := by
  induction l generalizing seen with
  | nil => simp [unseen]
  | cons a rest ih =>
      unfold unseen
      by_cases ha : toAsciiLowercase a.email ∈ seen
      · rw [if_pos ha]
        exact ih seen
      · rw [if_neg ha, List.map_cons, List.nodup_cons]
        refine ⟨fun hmem => ?_, ih _⟩
        exact (mem_keys_unseen.mp hmem).2 List.mem_cons_self

/-- What is kept was there. -/
theorem unseen_subset {l : List MailAddress} {seen : List String} {a : MailAddress}
    (h : a ∈ unseen seen l) : a ∈ l := by
  induction l generalizing seen with
  | nil => simp [unseen] at h
  | cons b rest ih =>
      unfold unseen at h
      split at h
      · exact List.mem_cons_of_mem _ (ih h)
      · cases h with
        | head => exact List.mem_cons_self
        | tail _ h => exact List.mem_cons_of_mem _ (ih h)

/-! ## 2. Both passes -/

section Reply

variable {env : External} {input : DraftInput} {accountEmail : String} {source : MessageContent}
  {r : SendRequest}

/-- The addresses that are not the account's own. -/
def others (accountEmail : String) (l : List MailAddress) : List MailAddress :=
  l.filter fun a => !sameAddress a accountEmail

theorem mem_others {l : List MailAddress} {a : MailAddress} :
    a ∈ others accountEmail l ↔ a ∈ l ∧ sameAddress a accountEmail = false := by
  simp [others]

/-- No email twice, the account in neither list, and nobody of the source left out. -/
structure RepliesToAll (source : MessageContent) (accountEmail : String) (r : SendRequest) :
    Prop where
  once : ((r.toAddrs ++ r.cc).map MailAddress.key).Nodup
  notSelf : ∀ a ∈ r.toAddrs ++ r.cc, sameAddress a accountEmail = false
  complete : ∀ a ∈ source.fromAddrs ++ source.toAddrs ++ source.cc,
    sameAddress a accountEmail = false → a.key ∈ (r.toAddrs ++ r.cc).map MailAddress.key

/-- No sender of the message, apart from the account, is among its recipients. -/
def SendersApart (source : MessageContent) (accountEmail : String) : Prop :=
  ∀ a ∈ others accountEmail source.fromAddrs,
    ∀ b ∈ others accountEmail (source.toAddrs ++ source.cc), a.key ≠ b.key

/-- **The two lists of a reply to all answer the source exactly when no key is in both.** -/
theorem repliesToAll_iff (hto : r.toAddrs = replyAllTo source accountEmail)
    (hcc : r.cc = replyAllCc source accountEmail) :
    RepliesToAll source accountEmail r ↔ SendersApart source accountEmail := by
  have hmemTo : ∀ key, key ∈ r.toAddrs.map MailAddress.key ↔
      key ∈ (others accountEmail source.fromAddrs).map MailAddress.key := by
    intro key
    rw [hto, replyAllTo, mem_keys_unseen]
    simp [others]
  have hmemCc : ∀ key, key ∈ r.cc.map MailAddress.key ↔
      key ∈ (others accountEmail (source.toAddrs ++ source.cc)).map MailAddress.key := by
    intro key
    rw [hcc, replyAllCc, mem_keys_unseen]
    simp [others]
  constructor
  · intro h a ha b hb hab
    have hnodup := h.once
    rw [List.map_append, List.nodup_append] at hnodup
    refine hnodup.2.2 a.key ?_ b.key ?_ hab
    · exact (hmemTo _).mpr (List.mem_map_of_mem ha)
    · exact (hmemCc _).mpr (List.mem_map_of_mem hb)
  · intro hapart
    refine ⟨?_, ?_, ?_⟩
    · rw [List.map_append, List.nodup_append]
      refine ⟨hto ▸ keys_unseen_nodup _ _, hcc ▸ keys_unseen_nodup _ _, ?_⟩
      intro key hkey key' hkey'
      obtain ⟨a, ha, rfl⟩ := List.mem_map.mp ((hmemTo _).mp hkey)
      obtain ⟨b, hb, rfl⟩ := List.mem_map.mp ((hmemCc _).mp hkey')
      exact hapart a ha b hb
    · intro a ha
      rw [List.mem_append, hto, hcc] at ha
      cases ha with
      | inl ha => exact (mem_others.mp (unseen_subset ha)).2
      | inr ha => exact (mem_others.mp (unseen_subset ha)).2
    · intro a ha hself
      rw [List.append_assoc, List.mem_append] at ha
      rw [List.map_append, List.mem_append]
      cases ha with
      | inl ha => exact .inl ((hmemTo _).mpr (List.mem_map_of_mem (mem_others.mpr ⟨ha, hself⟩)))
      | inr ha => exact .inr ((hmemCc _).mpr (List.mem_map_of_mem (mem_others.mpr ⟨ha, hself⟩)))

/-- The lists of an accepted reply to all that names no recipients. -/
theorem composeRequest_replyAll (h : composeRequest env input accountEmail = .ok r)
    (hmode : input.mode = .replyAll) (hto : input.toAddrs = []) (hcc : input.cc = [])
    (hsource : input.source = some source) :
    r.toAddrs = replyAllTo source accountEmail ∧ r.cc = replyAllCc source accountEmail := by
  simp only [composeRequest, bind_ok, ensure_ok, pure_ok] at h
  obtain ⟨_, -, _, -, _, -, _, -, _, -, rfl⟩ := h
  constructor
  · simp only [composeTo, hto, hsource, defaultTo, hmode]
  · simp only [composeCc, hcc, hsource, hmode, if_true]

/-- **A reply to all names every address of the source once exactly when no sender is also a
    recipient.** -/
theorem reply_all_iff (h : composeRequest env input accountEmail = .ok r)
    (hmode : input.mode = .replyAll) (hto : input.toAddrs = []) (hcc : input.cc = [])
    (hsource : input.source = some source) :
    RepliesToAll source accountEmail r ↔ SendersApart source accountEmail :=
  have hlists := composeRequest_replyAll h hmode hto hcc hsource
  repliesToAll_iff hlists.1 hlists.2

end Reply

namespace ReplySample

def env : External where
  payloadDigest _ := ""
  bytesDigest _ := ""
  timestamp _ := ""
  parseTimestamp _ := none
  parseUuid _ := false
  sendRequest := ⟨fun _ => none, fun _ => none⟩
  mailOperation := ⟨fun _ => none, fun _ => none⟩
  mailError := ⟨fun _ => none, fun _ => none⟩
  sendReceipt := ⟨fun _ => none, fun _ => none⟩
  mailReceipt := ⟨fun _ => none, fun _ => none⟩
  base64 _ := none
  utf8 _ := none
  parseIpAddr _ := false

def ann : MailAddress := ⟨none, "ann@a.org"⟩

/-- Ann's message to `addrs`. -/
def message (addrs : List MailAddress) : MessageContent where
  reference := ⟨"me", "INBOX", some 1, 1⟩
  messageId := none
  subject := "Hi"
  fromAddrs := [ann]
  toAddrs := addrs
  cc := []
  replyTo := []
  sentAt := none
  text := some "Hello"
  sanitizedHtml := none
  attachments := []
  untrusted := true
  truncated := false

def reply (addrs : List MailAddress) : DraftInput where
  accountId := "me"
  mode := .replyAll
  source := some (message addrs)
  toAddrs := []
  cc := []
  bcc := []
  subject := none
  text := none
  html := none
  attachments := []

end ReplySample

open ReplySample in
/-- A reply to Ann and Bob. -/
theorem reply_all_iff_sample : ∃ r,
    composeRequest env (reply [⟨none, "bob@a.org"⟩]) "me@a.org" = .ok r ∧
      (RepliesToAll (message [⟨none, "bob@a.org"⟩]) "me@a.org" r ↔
        SendersApart (message [⟨none, "bob@a.org"⟩]) "me@a.org") := by
  have hok : (composeRequest env (reply [⟨none, "bob@a.org"⟩]) "me@a.org").toOption.isSome := by
    decide
  obtain ⟨r, hr⟩ := exists_ok_of_isSome hok
  exact ⟨r, hr, reply_all_iff hr rfl rfl rfl rfl⟩

open ReplySample in
/-- **A sender who copies herself is named twice.** -/
theorem reply_all_repeats : ∃ r,
    composeRequest env (reply [⟨none, "Ann@a.org"⟩]) "me@a.org" = .ok r ∧
      ¬RepliesToAll (message [⟨none, "Ann@a.org"⟩]) "me@a.org" r := by
  have hok : (composeRequest env (reply [⟨none, "Ann@a.org"⟩]) "me@a.org").toOption.isSome := by
    decide
  obtain ⟨r, hr⟩ := exists_ok_of_isSome hok
  refine ⟨r, hr, fun h => ?_⟩
  have hlists := composeRequest_replyAll hr rfl rfl rfl rfl
  have hnodup := h.once
  rw [hlists.1, hlists.2] at hnodup
  revert hnodup
  decide

end Kirje
