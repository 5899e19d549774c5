import BlockSketch.Pin
import Mathlib.Data.List.Induction

/-!
Who owns a pin after any requests. The first request for a pin decides: its node owns the pin from
then on, with the usage and the label of that request, and every other node that asks for the pin
carries a warning that names the first. The table and the messages are described together by what
the requests so far have been, and each request keeps this description.
-/

namespace BlockSketch

structure PinRequest where
  node : NodeId
  pin : String
  usage : PinUsage
  label : String
  deriving DecidableEq, Repr

def PinRequest.claim (r : PinRequest) : PinClaim := ⟨r.usage, r.node, r.label⟩

def firstRequest? (requests : List PinRequest) (pin : String) : Option PinRequest :=
  requests.find? (fun r => r.pin = pin)

def Contests (requests : List PinRequest) (n : NodeId) (pin : String) (first : PinRequest) : Prop :=
  firstRequest? requests pin = some first ∧ (∃ r ∈ requests, r.node = n ∧ r.pin = pin) ∧
    first.node ≠ n

variable {past : List PinRequest} {r first : PinRequest} {n : NodeId} {pin : String}

theorem firstRequest?_append (past : List PinRequest) (r : PinRequest) (pin : String) :
    firstRequest? (past ++ [r]) pin =
      (firstRequest? past pin).or (if pin = r.pin then some r else none) := by
  simp only [firstRequest?, List.find?_append, List.find?_singleton, decide_eq_true_eq,
    eq_comm (a := pin)]

theorem firstRequest?_isSome_iff : (firstRequest? past pin).isSome ↔ ∃ r ∈ past, r.pin = pin := by
  simp [firstRequest?]

theorem exists_firstRequest? (h : r ∈ past) : ∃ first, firstRequest? past r.pin = some first :=
  Option.isSome_iff_exists.mp (firstRequest?_isSome_iff.mpr ⟨r, h, rfl⟩)

/-- A request adds at most a contest of its own node about its own pin. -/
theorem contests_append_iff (hother : ¬(n = r.node ∧ pin = r.pin)) :
    Contests (past ++ [r]) n pin first ↔ Contests past n pin first := by
  have hasked : (∃ q ∈ past ++ [r], q.node = n ∧ q.pin = pin) ↔
      ∃ q ∈ past, q.node = n ∧ q.pin = pin := by
    simp only [List.mem_append, List.mem_singleton, or_and_right, exists_or, exists_eq_left]
    exact or_iff_left fun h => hother ⟨h.1.symm, h.2.symm⟩
  unfold Contests
  rw [hasked, firstRequest?_append]
  refine and_congr_left fun h => ?_
  -- whoever contests a pin has asked for it, so it had a first request before
  obtain ⟨⟨q, hq, -, rfl⟩, -⟩ := h
  obtain ⟨owner, howner⟩ := exists_firstRequest? hq
  rw [howner, Option.some_or]

namespace PinTable

theorem slot_injective {pin pin' : String} : slot pin = slot pin' ↔ pin = pin' := by
  rw [slot, slot, String.append_right_inj]

/-! ### One request -/

/-- What is told after a request: the request is granted if the pin is free or belongs to the node
already, and only a pin that was free changes its owner. -/
theorem reserve_cases (t : PinTable) (ds : Diagnostics) (r : PinRequest) :
    let outcome := t.reserve ds r.node r.pin r.usage r.label
    (∀ pin, outcome.pins.owner? pin =
        (t.owner? pin).or (if pin = r.pin then some r.claim else none)) ∧
      (∀ claim, outcome.pins.owner? r.pin = some claim →
        (outcome.granted = true ↔ claim.node = r.node) ∧
          outcome.diagnostics = if claim.node = r.node then ds.clear r.node (slot r.pin)
            else ds.set r.node (slot r.pin) (conflict r.pin claim)) := by
  intro outcome
  cases howner : t.owner? r.pin with
  | none =>
      have houtcome : outcome = ⟨true, ⟨t.claims.insert r.pin r.claim⟩,
          ds.clear r.node (slot r.pin)⟩ := by
        simp only [outcome, reserve, howner, PinRequest.claim]
      have howner' (pin : String) : outcome.pins.owner? pin =
          (t.owner? pin).or (if pin = r.pin then some r.claim else none) := by
        rw [houtcome]
        change (t.claims.insert r.pin r.claim).find? pin = _
        rw [SortedMap.find?_insert]
        by_cases hpin : pin = r.pin
        · simp [hpin, howner]
        · simp [hpin, owner?]
      refine ⟨howner', fun claim hclaim => ?_⟩
      rw [howner', howner, if_pos rfl, Option.none_or] at hclaim
      obtain rfl := Option.some.inj hclaim
      simp [houtcome, PinRequest.claim]
  | some claim =>
      have hsame : outcome.pins = t := by
        simp only [outcome, reserve, howner]
        split <;> rfl
      refine ⟨fun pin => ?_, fun claim' hclaim => ?_⟩
      · rw [hsame]
        by_cases hpin : pin = r.pin
        · rw [hpin, howner, Option.some_or]
        · rw [if_neg hpin, Option.or_none]
      · rw [hsame, howner] at hclaim
        obtain rfl := Option.some.inj hclaim
        simp only [outcome, reserve, howner]
        split <;> simp_all

/-! ### Runs of requests -/

def afterRequests (requests : List PinRequest) : PinTable × Diagnostics :=
  requests.foldl (fun s r =>
    let outcome := s.1.reserve s.2 r.node r.pin r.usage r.label
    (outcome.pins, outcome.diagnostics)) (.empty, .empty)

theorem afterRequests_append (past : List PinRequest) (r : PinRequest) :
    let before := afterRequests past
    let outcome := before.1.reserve before.2 r.node r.pin r.usage r.label
    afterRequests (past ++ [r]) = (outcome.pins, outcome.diagnostics) := by
  simp [afterRequests, List.foldl_append]

/-- The table and the messages are those that some requests have left. -/
structure Reflects (past : List PinRequest) (t : PinTable) (ds : Diagnostics) : Prop where
  owner : ∀ pin, t.owner? pin = (firstRequest? past pin).map PinRequest.claim
  warned : ∀ n pin first, Contests past n pin first →
    ds.get? n (slot pin) = some { conflict pin first.claim with node := some n }
  contested : ∀ n key d, ds.get? n key = some d →
    ∃ pin first, key = slot pin ∧ Contests past n pin first

theorem reflects_empty : Reflects [] .empty .empty where
  owner pin := rfl
  warned n pin first h := by cases h.1
  contested n key d h := by cases h

variable {t : PinTable} {ds : Diagnostics}

theorem Reflects.owner_reserve (h : Reflects past t ds) (r : PinRequest) (pin : String) :
    (t.reserve ds r.node r.pin r.usage r.label).pins.owner? pin =
      (firstRequest? (past ++ [r]) pin).map PinRequest.claim := by
  rw [(t.reserve_cases ds r).1, h.owner, firstRequest?_append]
  cases firstRequest? past pin with
  | some first => simp
  | none => by_cases hpin : pin = r.pin <;> simp [hpin]

/-- The messages after a request, in terms of the first request for its pin. -/
theorem Reflects.diagnostics_reserve (h : Reflects past t ds)
    (hfirst : firstRequest? (past ++ [r]) r.pin = some first) :
    let outcome := t.reserve ds r.node r.pin r.usage r.label
    (outcome.granted = true ↔ first.node = r.node) ∧
      outcome.diagnostics = if first.node = r.node then ds.clear r.node (slot r.pin)
        else ds.set r.node (slot r.pin) (conflict r.pin first.claim) := by
  refine (t.reserve_cases ds r).2 first.claim ?_
  rw [h.owner_reserve, hfirst, Option.map_some]

/-- No other message changes. -/
theorem get?_reserve_of_ne (t : PinTable) (ds : Diagnostics) {key : String}
    (hother : ¬(n = r.node ∧ key = slot r.pin)) :
    (t.reserve ds r.node r.pin r.usage r.label).diagnostics.get? n key = ds.get? n key := by
  unfold reserve
  split
  · split
    · rw [Diagnostics.get?_clear, if_neg hother]
    · rw [Diagnostics.get?_set, if_neg hother]
  · rw [Diagnostics.get?_clear, if_neg hother]

theorem Reflects.reserve (h : Reflects past t ds) (r : PinRequest) :
    Reflects (past ++ [r]) (t.reserve ds r.node r.pin r.usage r.label).pins
      (t.reserve ds r.node r.pin r.usage r.label).diagnostics := by
  have hr : r ∈ past ++ [r] := by simp
  obtain ⟨owner, howner⟩ := exists_firstRequest? hr
  obtain ⟨-, hmessages⟩ := h.diagnostics_reserve howner
  refine ⟨h.owner_reserve r, ?_, ?_⟩
  · intro n pin first hcontests
    by_cases hown : n = r.node ∧ pin = r.pin
    · obtain ⟨rfl, rfl⟩ := hown
      obtain rfl : owner = first := Option.some.inj (howner.symm.trans hcontests.1)
      rw [hmessages, if_neg hcontests.2.2, Diagnostics.get?_set, if_pos ⟨rfl, rfl⟩]
    · rw [get?_reserve_of_ne t ds (by rwa [slot_injective])]
      exact h.warned n pin first ((contests_append_iff hown).mp hcontests)
  · intro n key d hd
    by_cases hown : n = r.node ∧ key = slot r.pin
    · obtain ⟨rfl, rfl⟩ := hown
      rw [hmessages] at hd
      split at hd
      next =>
          rw [Diagnostics.get?_clear, if_pos ⟨rfl, rfl⟩] at hd
          cases hd
      next hne => exact ⟨r.pin, owner, rfl, howner, ⟨r, by simp, rfl, rfl⟩, hne⟩
    · rw [get?_reserve_of_ne t ds hown] at hd
      obtain ⟨pin, first, rfl, hcontests⟩ := h.contested n key d hd
      refine ⟨pin, first, rfl, (contests_append_iff ?_).mpr hcontests⟩
      rwa [slot_injective] at hown

theorem reflects_afterRequests (requests : List PinRequest) :
    Reflects requests (afterRequests requests).1 (afterRequests requests).2 := by
  induction requests using List.reverseRecOn with
  | nil => exact reflects_empty
  | append_singleton past r ih =>
      rw [afterRequests_append]
      exact ih.reserve r

/-- After any requests for pins and one more: the owner of a pin is the first that asked for it, and
the claim has its usage and label. The request was granted exactly if its own node asked first. A
node carries a warning about a pin that names the first request exactly if it has asked for the pin
and is not the owner, and it carries no other messages. The request changed no message but that of
its own node about its own pin. -/
theorem first_request_owns_pin (earlier : List PinRequest) (r : PinRequest) :
    let before := afterRequests earlier
    let outcome := before.1.reserve before.2 r.node r.pin r.usage r.label
    let requests := earlier ++ [r]
    afterRequests requests = (outcome.pins, outcome.diagnostics) ∧
      (∀ pin, outcome.pins.owner? pin =
        (requests.find? (fun q => q.pin = pin)).map (fun q => ⟨q.usage, q.node, q.label⟩)) ∧
      (outcome.granted = true ↔
        (requests.find? (fun q => q.pin = r.pin)).map (·.node) = some r.node) ∧
      (∀ n pin first, requests.find? (fun q => q.pin = pin) = some first →
        (outcome.diagnostics.get? n ("pin:" ++ pin) =
            some ⟨.warning, some "W0101", some n,
              "Pin " ++ pin ++ " is already used by \"" ++ first.label ++ "\"",
              some ("pin " ++ pin ++ " is claimed as " ++ first.usage.text)⟩ ↔
          (∃ q ∈ requests, q.node = n ∧ q.pin = pin) ∧ first.node ≠ n)) ∧
      (∀ n key d, outcome.diagnostics.get? n key = some d →
        ∃ pin first, key = "pin:" ++ pin ∧ requests.find? (fun q => q.pin = pin) = some first ∧
          (∃ q ∈ requests, q.node = n ∧ q.pin = pin) ∧ first.node ≠ n) ∧
      ∀ n key, ¬(n = r.node ∧ key = "pin:" ++ r.pin) →
        outcome.diagnostics.get? n key = before.2.get? n key := by
  intro before outcome requests
  have hbefore : Reflects earlier before.1 before.2 := reflects_afterRequests earlier
  have hafter : Reflects requests outcome.pins outcome.diagnostics := hbefore.reserve r
  refine ⟨afterRequests_append earlier r, hafter.owner, ?_, ?_, ?_, ?_⟩
  · have hr : r ∈ requests := by simp [requests]
    obtain ⟨first, hfirst⟩ := exists_firstRequest? hr
    have hgranted := (hbefore.diagnostics_reserve hfirst).1
    rw [hgranted, show requests.find? (fun q => q.pin = r.pin) = some first from hfirst]
    simp
  · intro n pin first hfirst
    constructor
    · intro hwarned
      obtain ⟨pin', first', hslot, hcontests⟩ := hafter.contested n _ _ hwarned
      obtain rfl := slot_injective.mp hslot
      obtain rfl : first = first' := Option.some.inj (hfirst.symm.trans hcontests.1)
      exact hcontests.2
    · intro hcontests
      exact hafter.warned n pin first ⟨hfirst, hcontests⟩
  · intro n key d hd
    exact hafter.contested n key d hd
  · intro n key hother
    exact get?_reserve_of_ne before.1 before.2 hother

/-- A lamp owns a pin, a button asks for it and is refused, and the lamp asks again: the button
keeps its warning, and the lamp gets none. -/
theorem refused_request_leaves_warning :
    let lamp : PinRequest := ⟨⟨1⟩, "13", .output, "LED"⟩
    let button : PinRequest := ⟨⟨2⟩, "13", .input, "Button"⟩
    let before := afterRequests [lamp, button]
    let outcome := before.1.reserve before.2 lamp.node lamp.pin lamp.usage lamp.label
    outcome.pins.owner? "13" = some ⟨.output, ⟨1⟩, "LED"⟩ ∧ outcome.granted = true ∧
      outcome.diagnostics.get? ⟨2⟩ "pin:13" =
        some ⟨.warning, some "W0101", some ⟨2⟩, "Pin 13 is already used by \"LED\"",
          some "pin 13 is claimed as OUTPUT"⟩ ∧
      outcome.diagnostics.get? ⟨2⟩ "pin:13" = before.2.get? ⟨2⟩ "pin:13" := by
  intro lamp button before outcome
  obtain ⟨-, howner, hgranted, hwarned, -, hkept⟩ := first_request_owns_pin [lamp, button] lamp
  refine ⟨howner "13", hgranted.mpr (by decide), ?_, hkept ⟨2⟩ "pin:13" (by decide)⟩
  exact (hwarned ⟨2⟩ "13" lamp (by decide)).mpr ⟨⟨button, by decide⟩, by decide⟩

end PinTable

end BlockSketch
