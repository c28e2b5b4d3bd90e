import Coalesce.Proofs.Armed

/-!
# The accounts of a service

The inbox gives out messages in the order in which they came in, so what was sent is what was read
and what is still in the inbox. What was read falls into batches, one for each pass, and each pass
attends to its batch. Tickets increase in the order of sending, so no request is in two places.
-/

namespace Coalesce

variable {W U P E : Type}

namespace Moment

/-- What was sent, read and attended to. -/
structure Accounted (m : Moment W U P) : Prop where
  /-- Tickets increase in the order of sending. -/
  tickets : InOrder m.asked
  issued : ∀ r ∈ m.asked, r.ticket < m.issued
  /-- First in, first out. -/
  channel : m.service.phase ≠ .stopped → m.sent = m.read.map Prod.fst ++ m.service.inbox
  read_prefix : m.read.map Prod.fst <+: m.sent
  emptied : m.service.phase = .stopped → m.service.inbox = []
  batched : m.heard.map Prod.fst = m.batches.flatten
  attended : ∀ round ∈ m.rounds, round.pass.Attends round.requests

variable {m m' : Moment W U P}

theorem heard_read_quit (m : Moment W U P) (service : Service W U P) :
    heard { m with service := service, read := m.read ++ [(.quit, m.now)] } = m.heard := by
  rw [heard, List.filterMap_append]
  exact List.append_nil _

theorem map_fst_heard (m : Moment W U P) :
    m.heard.map Prod.fst = (m.read.map Prod.fst).filterMap Message.request? := by
  rw [heard, List.map_filterMap, List.filterMap_map]
  congr 1
  funext entry
  simp [Function.comp_def]

theorem asked_sent (m : Moment W U P) (service : Service W U P) (issued : Nat)
    (message : Message) :
    asked { m with service := service, issued := issued, sent := m.sent ++ [message] } =
      m.asked ++ message.request?.toList := by
  rw [asked, List.filterMap_append]
  cases message <;> rfl

namespace Accounted

theorem sends (h : m.Accounted) (hopen : m.service.IsOpen) {service : Service W U P}
    {message : Message} {issued : Nat} (hphase : service.phase = m.service.phase)
    (hinbox : service.inbox = m.service.inbox ++ [message])
    (htickets : InOrder (m.asked ++ message.request?.toList))
    (hissued : ∀ r ∈ m.asked ++ message.request?.toList, r.ticket < issued) :
    Accounted { m with service := service, issued := issued, sent := m.sent ++ [message] } where
  tickets := by rwa [asked_sent]
  issued := by rwa [asked_sent]
  channel := by
    intro _
    rw [hinbox, ← List.append_assoc, ← h.channel hopen.2]
  read_prefix := h.read_prefix.trans (List.prefix_append _ _)
  emptied := fun hstopped ↦ absurd (hphase.symm.trans hstopped) hopen.2
  batched := h.batched
  attended := h.attended

/-- A new request has a ticket of its own. -/
theorem asks (h : m.Accounted) (hopen : m.service.IsOpen) {service : Service W U P}
    {target : Target} (hphase : service.phase = m.service.phase)
    (hinbox : service.inbox = m.service.inbox ++ [.request ⟨m.issued, target⟩]) :
    Accounted { m with
      service := service
      issued := m.issued + 1
      sent := m.sent ++ [.request ⟨m.issued, target⟩] } := by
  refine h.sends hopen hphase hinbox ?_ fun r hr ↦ ?_
  · refine List.pairwise_append.2 ⟨h.tickets, List.pairwise_singleton _ _, fun r hr r' hr' ↦ ?_⟩
    rw [List.mem_singleton.1 hr']
    exact h.issued r hr
  · rcases List.mem_append.1 hr with hr | hr
    · exact Nat.lt_succ_of_lt (h.issued r hr)
    · rw [List.mem_singleton.1 hr]
      exact Nat.lt_succ_self _

theorem close (h : m.Accounted) {u : Service W U P} {read : List (Message × Nat)}
    (hchannel : m.sent = read.map Prod.fst ++ u.inbox)
    (hbatched : heard { m with service := u, read := read } = m.heard) :
    Accounted { m with service := u.close m.now, read := read } := by
  have hread : read.map Prod.fst <+: m.sent := ⟨u.inbox, hchannel.symm⟩
  have hbatches : (heard { m with service := u, read := read }).map Prod.fst =
      m.batches.flatten := by
    rw [hbatched, h.batched]
  by_cases hnobody : u.session.queue.requests = []
  · rw [Service.close_of_nobody hnobody]
    exact ⟨h.tickets, h.issued, fun hphase ↦ absurd rfl hphase, hread, fun _ ↦ rfl, hbatches,
      h.attended⟩
  · rw [Service.close_of_somebody hnobody]
    exact ⟨h.tickets, h.issued, fun _ ↦ hchannel, hread, nofun, hbatches, h.attended⟩

theorem conclude (h : m.Accounted) (hstep : m.InStep) {isLast : Bool} {pass : Pass W U P}
    (hphase : m.service.phase = .compiling isLast)
    (hattends : pass.Attends m.service.session.queue.requests) :
    (m.conclude isLast pass).Accounted where
  tickets := h.tickets
  issued := h.issued
  channel := by
    intro hlistening
    rw [Moment.conclude, Service.phase_conclude] at hlistening
    rw [Moment.conclude, Service.inbox_conclude]
    split at hlistening
    · exact absurd rfl hlistening
    · next hgoes =>
      rw [if_neg hgoes]
      exact h.channel (by simp [hphase])
  read_prefix := h.read_prefix
  emptied := by
    intro hstopped
    rw [Moment.conclude, Service.phase_conclude] at hstopped
    rw [Moment.conclude, Service.inbox_conclude]
    split at hstopped
    · next hstops => exact if_pos hstops
    · cases hstopped
  batched := by
    have hbatches : (m.conclude isLast pass).batches.flatten = m.batches.flatten := by
      simp [Moment.conclude, batches]
    rw [hbatches]
    exact h.batched
  attended := by
    intro round hround
    rcases List.mem_append.1 hround with hround | hround
    · exact h.attended round hround
    · rw [List.mem_singleton.1 hround]
      rwa [hstep.queue] at hattends

/-- **Every move keeps the accounts.** -/
theorem leads (h : m.Accounted) (hstep : m.InStep) (hm : m.Leads m') : m'.Accounted := by
  cases hm with
  | drifts hnow hissued hheld =>
    exact ⟨h.tickets, fun r hr ↦ Nat.lt_of_lt_of_le (h.issued r hr) hissued, h.channel,
      h.read_prefix, h.emptied, h.batched, h.attended⟩
  | asks target hopen => exact h.asks hopen rfl rfl
  | enlists target hopen => exact h.asks hopen rfl rfl
  | refuses target hphase =>
    exact ⟨h.tickets, fun r hr ↦ Nat.lt_succ_of_lt (h.issued r hr), h.channel, h.read_prefix,
      h.emptied, h.batched, h.attended⟩
  | dismisses hopen =>
    exact h.sends hopen rfl rfl (by simpa using h.tickets) (by simpa using h.issued)
  | hears hphase hinbox =>
    rename_i r rest
    have hchannel := h.channel (by rw [hphase]; nofun)
    rw [hinbox] at hchannel
    refine ⟨h.tickets, h.issued, fun _ ↦ ?_, ⟨rest, ?_⟩, fun hstopped ↦ ?_, ?_, h.attended⟩
    · simpa using hchannel
    · simpa using hchannel.symm
    · exact absurd (hphase.symm.trans hstopped) (by simp)
    · rw [heard_read_request]
      simpa [batches] using congrArg (· ++ [r]) h.batched
  | quits hphase hinbox =>
    have hchannel := h.channel (by rw [hphase]; nofun)
    rw [hinbox] at hchannel
    exact h.close (by simpa using hchannel) (heard_read_quit m _)
  | deserted hphase hinbox hhandles =>
    exact h.close (h.channel (by rw [hphase]; nofun)) rfl
  | begins hphase hinbox hover =>
    exact ⟨h.tickets, h.issued, fun _ ↦ h.channel (by rw [hphase]; nofun), h.read_prefix, nofun,
      h.batched, h.attended⟩
  | concludes hphase hattends => exact h.conclude hstep hphase hattends

theorem heard_prefix_asked (h : m.Accounted) : m.heard.map Prod.fst <+: m.asked := by
  rw [map_fst_heard]
  exact h.read_prefix.filterMap _

theorem inOrder_batches (h : m.Accounted) : InOrder m.batches.flatten := by
  rw [← h.batched]
  exact h.tickets.sublist h.heard_prefix_asked.sublist

/-- What is in the inbox has not been read. -/
theorem unread_of_inbox (h : m.Accounted) {r : Request} (hr : .request r ∈ m.service.inbox) :
    r ∉ m.heard.map Prod.fst := by
  intro hread
  have hphase : m.service.phase ≠ .stopped := by
    intro hstopped
    rw [h.emptied hstopped] at hr
    exact absurd hr List.not_mem_nil
  have horder := h.tickets
  rw [asked, h.channel hphase, List.filterMap_append, ← map_fst_heard, InOrder,
    List.pairwise_append] at horder
  have hinbox : r ∈ m.service.inbox.filterMap Message.request? :=
    List.mem_filterMap.2 ⟨_, hr, rfl⟩
  exact Nat.lt_irrefl _ (horder.2.2 r hread r hinbox)

/-- Whoever waits for the next pass was read. -/
theorem read_of_pending (h : m.Accounted) {r : Request} (hr : r ∈ m.pending) :
    r ∈ m.heard.map Prod.fst := by
  rw [h.batched, batches]
  exact List.mem_flatten_of_mem List.mem_concat_self hr

theorem inOrder_requests (h : m.Accounted) {round : Round W U P} (hround : round ∈ m.rounds) :
    InOrder round.requests :=
  (List.pairwise_flatten.1 h.inOrder_batches).1 _
    (List.mem_append_left _ (List.mem_map_of_mem hround))

/-- Whatever was read fell to a pass if nobody waits for one. -/
theorem exists_round (h : m.Accounted) {r : Request} (hpending : m.pending = [])
    (hr : r ∈ m.heard.map Prod.fst) : ∃ round ∈ m.rounds, r ∈ round.requests := by
  rw [h.batched, batches, hpending] at hr
  simpa using hr

theorem batch_unique (h : m.Accounted) {i j : Nat} {b b' : List Request} {r : Request}
    (hi : m.batches[i]? = some b) (hj : m.batches[j]? = some b') (hr : r ∈ b) (hr' : r ∈ b') :
    i = j := by
  by_contra hij
  obtain ⟨hlt, rfl⟩ := List.getElem?_eq_some_iff.1 hi
  obtain ⟨hlt', rfl⟩ := List.getElem?_eq_some_iff.1 hj
  exact ticket_ne_of_batches h.inOrder_batches hlt hlt' hij hr hr' rfl

end Accounted

end Moment

namespace Scene

variable (scene : Scene W U P E) (settings? : Option BatchSettings) (root : FilePath) (w : W)

theorem accounted_opened : (scene.opened settings? root w).Accounted where
  tickets := List.Pairwise.nil
  issued := by simp [opened, Moment.asked]
  channel := fun _ ↦ rfl
  read_prefix := List.nil_prefix
  emptied := nofun
  batched := rfl
  attended := by simp [opened]

end Scene

end Coalesce
