import Mathlib.Data.List.Chain
import Mathlib.Data.List.Induction
import Mathlib.Logic.Function.Basic
import Moonlight.Lib.Runs

/-!
# Attempts to connect

`Ban::acceptConnection` (creatures/players/management/ban.cpp) counts the attempts of each address that came within five
seconds of one another. The sixth is refused if it comes within half a second of the fifth, and the address is blocked
for three seconds then. Every attempt in that time makes it a quarter of a second longer.

The addresses do not get in each other's way (`ofIP_log`). So what the limit comes to can be said of the attempts of one
address, in a run with any others in between: of seven attempts in a quick row one is refused (`refused_of_quick`), no
address is blocked but for six of its attempts (`blocked_cause`), and `held_iff` says when it gets in again.
-/

namespace Moonlight

namespace Ban

/-- Times are in milliseconds, and far from where the machine integers of the source end. -/
structure ConnectBlock where
  lastAttempt : Nat
  blockTime : Nat
  count : Nat
deriving DecidableEq

/-- What becomes of the entry of an address, and whether the connection is accepted. -/
def attempt (currentTime : Nat) : Option ConnectBlock → Bool × ConnectBlock
  | none => (true, ⟨currentTime, 0, 1⟩)
  | some connectBlock =>
    if connectBlock.blockTime > currentTime then
      (false, { connectBlock with blockTime := connectBlock.blockTime + 250 })
    else
      -- the clock may have been set back
      let timeDiff : Int := currentTime - connectBlock.lastAttempt
      let connectBlock := { connectBlock with lastAttempt := currentTime }
      if timeDiff ≤ 5000 then
        let connectBlock := { connectBlock with count := connectBlock.count + 1 }
        if connectBlock.count > 5 then
          let connectBlock := { connectBlock with count := 0 }
          if timeDiff ≤ 500 then (false, { connectBlock with blockTime := currentTime + 3000 })
          else (true, connectBlock)
        else (true, connectBlock)
      else (true, { connectBlock with count := 1 })

abbrev IpConnectMap := UInt32 → Option ConnectBlock

def acceptConnection (ipConnectMap : IpConnectMap) (clientIP : UInt32) (currentTime : Nat) : Bool × IpConnectMap :=
  let (accepted, connectBlock) := attempt currentTime (ipConnectMap clientIP)
  (accepted, Function.update ipConnectMap clientIP (some connectBlock))

/-! ### One attempt -/

/-- What an attempt does to an entry. -/
inductive Outcome (b : ConnectBlock) (t : Nat) : Bool × ConnectBlock → Prop
  | held : t < b.blockTime → Outcome b t (false, { b with blockTime := b.blockTime + 250 })
  | apart : b.blockTime ≤ t → b.lastAttempt + 5000 < t → Outcome b t (true, ⟨t, b.blockTime, 1⟩)
  | counted : b.blockTime ≤ t → t ≤ b.lastAttempt + 5000 → b.count < 5 →
      Outcome b t (true, ⟨t, b.blockTime, b.count + 1⟩)
  | spared : b.blockTime ≤ t → b.lastAttempt + 500 < t → Outcome b t (true, ⟨t, b.blockTime, 0⟩)
  | blocked : b.blockTime ≤ t → 5 ≤ b.count → t ≤ b.lastAttempt + 500 → Outcome b t (false, ⟨t, t + 3000, 0⟩)

theorem attempt_outcome (b : ConnectBlock) (t : Nat) : Outcome b t (attempt t (some b)) := by
  unfold attempt
  dsimp only
  split
  next hheld => exact .held hheld
  next hfree =>
    have hfree : b.blockTime ≤ t := Nat.not_lt.mp hfree
    split
    next hclose =>
      split
      next hmany =>
        split
        next hquick => exact .blocked hfree (by omega) (by omega)
        next hslow => exact .spared hfree (by omega)
      next hfew => exact .counted hfree (by omega) (by omega)
    next hfar => exact .apart hfree (by omega)

theorem of_accepted {entry : Option ConnectBlock} {t : Nat} (haccepted : (attempt t entry).1 = true) :
    (attempt t entry).2.lastAttempt = t ∧ (attempt t entry).2.count ≤ 5 := by
  cases entry with
  | none => exact ⟨rfl, Nat.succ_le_succ (Nat.zero_le _)⟩
  | some b =>
    have houtcome := attempt_outcome b t
    generalize attempt t (some b) = result at haccepted houtcome
    cases houtcome with
    | held | blocked => cases haccepted
    | apart => exact ⟨rfl, Nat.succ_le_succ (Nat.zero_le _)⟩
    | spared => exact ⟨rfl, Nat.zero_le _⟩
    | counted _ _ hfew => exact ⟨rfl, hfew⟩

theorem blocked_of_refused {b : ConnectBlock} {t : Nat} (hfree : b.blockTime ≤ t)
    (hrefused : (attempt t (some b)).1 = false) :
    (attempt t (some b)).2 = ⟨t, t + 3000, 0⟩ ∧ 5 ≤ b.count ∧ t ≤ b.lastAttempt + 500 := by
  have houtcome := attempt_outcome b t
  generalize attempt t (some b) = result at hrefused houtcome
  cases houtcome with
  | held hheld => exact absurd hfree (Nat.not_le.mpr hheld)
  | apart | spared | counted => cases hrefused
  | blocked _ hmany hquick => exact ⟨rfl, hmany, hquick⟩

/-! ### The attempts of one address -/

/-- The attempts with their answers. -/
def decisions : Option ConnectBlock → List Nat → List (Nat × Bool)
  | _, [] => []
  | entry, t :: ts => (t, (attempt t entry).1) :: decisions (some (attempt t entry).2) ts

def after (entry : Option ConnectBlock) (ts : List Nat) : Option ConnectBlock :=
  Runs.run (fun entry t => some (attempt t entry).2) entry ts

theorem decisions_append (entry : Option ConnectBlock) (ts ts' : List Nat) :
    decisions entry (ts ++ ts') = decisions entry ts ++ decisions (after entry ts) ts' := by
  induction ts generalizing entry with
  | nil => rfl
  | cons t ts ih => exact congrArg ((t, (attempt t entry).1) :: ·) (ih _)

theorem length_decisions (entry : Option ConnectBlock) (ts : List Nat) : (decisions entry ts).length = ts.length := by
  induction ts generalizing entry with
  | nil => rfl
  | cons t ts ih => exact congrArg (· + 1) (ih _)

/-- The attempts that were accepted. -/
def admitted (log : List (Nat × Bool)) : List Nat := (log.filter Prod.snd).map Prod.fst

theorem count_of_quick {b : ConnectBlock} {ts : List Nat}
    (hquick : (b.lastAttempt :: ts).IsChain fun earlier later => later ≤ earlier + 500)
    (hall : ∀ decision, decision ∈ decisions (some b) ts → decision.2 = true) (hcount : b.count ≤ 5) :
    b.count + ts.length ≤ 5 := by
  induction ts generalizing b with
  | nil => exact hcount
  | cons t ts ih =>
    obtain ⟨hnext, hquick⟩ := List.isChain_cons_cons.mp hquick
    obtain ⟨haccepted, hall⟩ := List.forall_mem_cons.mp hall
    rw [List.length_cons]
    have houtcome := attempt_outcome b t
    generalize attempt t (some b) = result at haccepted hall houtcome
    cases houtcome with
    | held | blocked => cases haccepted
    | apart _ hfar => omega
    | spared _ hslow => omega
    | counted _ _ hfew =>
      have hmore := @ih ⟨t, b.blockTime, b.count + 1⟩ hquick hall hfew
      dsimp only at hmore
      omega

theorem refused_of_window {entry : Option ConnectBlock} {window : List Nat} (hseven : window.length = 7)
    (hquick : window.IsChain fun earlier later => later ≤ earlier + 500) :
    ∃ decision, decision ∈ decisions entry window ∧ decision.2 = false := by
  by_contra hnone
  have hall : ∀ decision, decision ∈ decisions entry window → decision.2 = true := fun decision hmem =>
    eq_true_of_ne_false fun hrefused => hnone ⟨decision, hmem, hrefused⟩
  cases window with
  | nil => cases hseven
  | cons t ts =>
    obtain ⟨haccepted, hall⟩ := List.forall_mem_cons.mp hall
    have hstart := of_accepted haccepted
    have hfew := count_of_quick (hstart.1.symm ▸ hquick) hall hstart.2
    rw [List.length_cons] at hseven
    omega

theorem decisions_refused_iff {b : ConnectBlock} (hcount : b.count = 0) (ts : List Nat) :
    (∀ decision, decision ∈ decisions (some b) ts → decision.2 = false) ↔
      ∀ i (hi : i < ts.length), ts[i] < b.blockTime + 250 * i := by
  induction ts generalizing b with
  | nil => exact iff_of_true nofun nofun
  | cons t ts ih =>
    rw [decisions, List.forall_mem_cons]
    have houtcome := attempt_outcome b t
    generalize attempt t (some b) = result at houtcome
    cases houtcome with
    | held hheld =>
      refine (and_iff_right rfl).trans ((@ih ⟨b.lastAttempt, b.blockTime + 250, b.count⟩ hcount).trans ⟨?_, ?_⟩)
      · intro hts i hi
        cases i with
        | zero => exact hheld
        | succ i =>
          have hlater := hts i (Nat.lt_of_succ_lt_succ hi)
          dsimp only at hlater
          rw [List.getElem_cons_succ]
          omega
      · intro hts i hi
        have hlater := hts (i + 1) (Nat.succ_lt_succ hi)
        rw [List.getElem_cons_succ] at hlater
        dsimp only
        omega
    | blocked _ hmany => omega
    | apart hfree | spared hfree | counted hfree =>
      exact iff_of_false (fun h => Bool.noConfusion h.1) fun hts => Nat.not_lt.mpr hfree (hts 0 (Nat.succ_pos _))

/-- What is counted: the last attempts that were accepted, each within five seconds of the one before it. -/
def Counts (accepted : List Nat) : Option ConnectBlock → Prop
  | none => True
  | some b => ∃ earlier last, accepted = earlier ++ last ∧ last.length = b.count ∧
      (last.IsChain fun earlier later => later ≤ earlier + 5000) ∧ ∀ t, t ∈ last.getLast? → t = b.lastAttempt

theorem Counts.attempt {accepted : List Nat} {entry : Option ConnectBlock} (h : Counts accepted entry) (t : Nat) :
    Counts (accepted ++ admitted [(t, (attempt t entry).1)]) (some (attempt t entry).2) := by
  cases entry with
  | none => exact ⟨accepted, [t], rfl, rfl, .singleton t, fun s hs => (Option.some.inj hs).symm⟩
  | some b =>
    obtain ⟨earlier, last, rfl, hcount, hchain, hlast⟩ := h
    have houtcome := attempt_outcome b t
    generalize Ban.attempt t (some b) = result at houtcome
    cases houtcome with
    | held => exact ⟨earlier, last, List.append_nil _, hcount, hchain, hlast⟩
    | blocked => exact ⟨earlier ++ last, [], rfl, rfl, .nil, nofun⟩
    | spared => exact ⟨earlier ++ last ++ [t], [], (List.append_nil _).symm, rfl, .nil, nofun⟩
    | apart => exact ⟨earlier ++ last, [t], rfl, rfl, .singleton t, fun s hs => (Option.some.inj hs).symm⟩
    | counted _ hclose =>
      refine ⟨earlier, last ++ [t], List.append_assoc _ _ _, ?_, ?_, ?_⟩
      · rw [List.length_append, hcount, List.length_singleton]
      · refine List.isChain_append.mpr ⟨hchain, .singleton t, fun s hs u hu => ?_⟩
        rw [hlast s hs, ← Option.some.inj hu]
        exact hclose
      · intro s hs
        rw [List.getLast?_concat] at hs
        exact (Option.some.inj hs).symm

theorem counts_after (ts : List Nat) : Counts (admitted (decisions none ts)) (after none ts) := by
  induction ts using List.reverseRecOn with
  | nil => trivial
  | append_singleton ts t ih =>
    have hafter : after none (ts ++ [t]) = some (attempt t (after none ts)).2 := Runs.run_append _ none ts [t]
    rw [hafter, decisions_append, admitted, List.filter_append, List.map_append]
    exact ih.attempt t

/-! ### Many addresses -/

/-- The attempts of all addresses with their answers. -/
def log : IpConnectMap → List (UInt32 × Nat) → List (UInt32 × Nat × Bool)
  | _, [] => []
  | m, (clientIP, t) :: attempts =>
    (clientIP, t, (acceptConnection m clientIP t).1) :: log (acceptConnection m clientIP t).2 attempts

def connected (m : IpConnectMap) (attempts : List (UInt32 × Nat)) : IpConnectMap :=
  Runs.run (fun m attempt => (acceptConnection m attempt.1 attempt.2).2) m attempts

/-- What of a list belongs to an address. -/
def ofIP {α : Type} (clientIP : UInt32) (entries : List (UInt32 × α)) : List α :=
  entries.filterMap fun entry => if entry.1 = clientIP then some entry.2 else none

theorem ofIP_cons_self {α : Type} (clientIP : UInt32) (a : α) (entries : List (UInt32 × α)) :
    ofIP clientIP ((clientIP, a) :: entries) = a :: ofIP clientIP entries :=
  List.filterMap_cons_some (if_pos rfl)

theorem ofIP_cons_of_ne {α : Type} {clientIP other : UInt32} (hne : clientIP ≠ other) (a : α)
    (entries : List (UInt32 × α)) : ofIP clientIP ((other, a) :: entries) = ofIP clientIP entries :=
  List.filterMap_cons_none (if_neg hne.symm)

theorem acceptConnection_of_ne (m : IpConnectMap) {clientIP other : UInt32} (hne : clientIP ≠ other) (t : Nat) :
    (acceptConnection m other t).2 clientIP = m clientIP :=
  Function.update_of_ne hne _ m

theorem acceptConnection_self (m : IpConnectMap) (clientIP : UInt32) (t : Nat) :
    (acceptConnection m clientIP t).2 clientIP = some (attempt t (m clientIP)).2 :=
  Function.update_self clientIP _ m

/-- **Addresses are apart**: each is answered as if it were the only one. -/
theorem ofIP_log (m : IpConnectMap) (clientIP : UInt32) (attempts : List (UInt32 × Nat)) :
    ofIP clientIP (log m attempts) = decisions (m clientIP) (ofIP clientIP attempts) ∧
      connected m attempts clientIP = after (m clientIP) (ofIP clientIP attempts) := by
  induction attempts generalizing m with
  | nil => exact ⟨rfl, rfl⟩
  | cons attempt attempts ih =>
    obtain ⟨other, t⟩ := attempt
    obtain ⟨hlog, hconnected⟩ := ih (acceptConnection m other t).2
    by_cases hip : clientIP = other
    · subst hip
      rw [acceptConnection_self] at hlog hconnected
      rw [ofIP_cons_self, log, ofIP_cons_self]
      exact ⟨congrArg ((t, (acceptConnection m clientIP t).1) :: ·) hlog, hconnected⟩
    · rw [acceptConnection_of_ne m hip] at hlog hconnected
      rw [ofIP_cons_of_ne hip, log, ofIP_cons_of_ne hip]
      exact ⟨hlog, hconnected⟩

/-- Five attempts of one address, and one of another in between. -/
def flood : List (UInt32 × Nat) := [(7, 0), (7, 100), (9, 100), (7, 200), (7, 300), (7, 400)]

/-- **A quick row of attempts is not accepted as a whole**, whatever came before it and from which addresses. -/
theorem refused_of_quick (m : IpConnectMap) (attempts : List (UInt32 × Nat)) (clientIP : UInt32)
    {before window rest : List Nat} (hof : ofIP clientIP attempts = before ++ window ++ rest)
    (hseven : window.length = 7) (hquick : window.IsChain fun earlier later => later ≤ earlier + 500) :
    ∃ decision, decision ∈ ((ofIP clientIP (log m attempts)).drop before.length).take 7 ∧ decision.2 = false := by
  have hwindow : ((ofIP clientIP (log m attempts)).drop before.length).take 7 =
      decisions (after (m clientIP) before) window := by
    rw [(ofIP_log m clientIP attempts).1, hof, List.append_assoc, decisions_append, decisions_append,
      List.drop_left' (length_decisions _ _), List.take_left' ((length_decisions _ _).trans hseven)]
  rw [hwindow]
  exact refused_of_window hseven hquick

theorem refused_of_quick_flood : ∃ decision,
    decision ∈ ((ofIP 7 (log (fun _ => none) (flood ++ [(7, 500), (7, 600)]))).drop 0).take 7 ∧ decision.2 = false :=
  @refused_of_quick (fun _ => none) (flood ++ [(7, 500), (7, 600)]) 7 [] [0, 100, 200, 300, 400, 500, 600] [] rfl rfl
    (by decide)

/-- **An address that is blocked** has attempted it five times before and was accepted, each time within five seconds,
and the last time within half a second. -/
theorem blocked_cause (attempts : List (UInt32 × Nat)) (clientIP : UInt32) {b : ConnectBlock} {t : Nat}
    (hentry : connected (fun _ => none) attempts clientIP = some b) (hfree : b.blockTime ≤ t)
    (hrefused : (acceptConnection (connected (fun _ => none) attempts) clientIP t).1 = false) :
    ∃ earlier five last, admitted (ofIP clientIP (log (fun _ => none) attempts)) = earlier ++ five ∧ 5 ≤ five.length ∧
      (five ++ [t]).IsChain (fun earlier later => later ≤ earlier + 5000) ∧ last ∈ five.getLast? ∧ t ≤ last + 500 := by
  obtain ⟨hlog, hconnected⟩ := ofIP_log (fun _ => none) clientIP attempts
  have hcounts := counts_after (ofIP clientIP attempts)
  rw [← hlog, ← hconnected, hentry] at hcounts
  obtain ⟨earlier, five, hadmitted, hcount, hchain, hlast⟩ := hcounts
  obtain ⟨-, hmany, hquick⟩ := blocked_of_refused hfree (hentry ▸ hrefused)
  have hlength : 5 ≤ five.length := hcount ▸ hmany
  have hlater : ∀ s, s ∈ five.getLast? → t ≤ s + 500 := fun s hs => hlast s hs ▸ hquick
  cases hend : five.getLast? with
  | none => rw [List.getLast?_eq_none_iff.mp hend] at hlength; cases hlength
  | some last =>
    refine ⟨earlier, five, last, hadmitted, hlength, ?_, hend, hlater last hend⟩
    refine List.isChain_append.mpr ⟨hchain, .singleton t, fun s hs u hu => ?_⟩
    have hsoon := hlater s hs
    rw [← Option.some.inj hu]
    omega

theorem blocked_cause_flood : ∃ earlier five last,
    admitted (ofIP 7 (log (fun _ => none) flood)) = earlier ++ five ∧ 5 ≤ five.length ∧
      (five ++ [500]).IsChain (fun earlier later => later ≤ earlier + 5000) ∧ last ∈ five.getLast? ∧ 500 ≤ last + 500 :=
  @blocked_cause flood 7 ⟨400, 0, 5⟩ 500 (by decide) (by decide) (by decide)

/-- **The block** ends three seconds after it began, and a quarter of a second later for each attempt in it. -/
theorem held_iff (m : IpConnectMap) (clientIP : UInt32) {b : ConnectBlock} {t : Nat} (hentry : m clientIP = some b)
    (hfree : b.blockTime ≤ t) (hrefused : (acceptConnection m clientIP t).1 = false) (attempts : List (UInt32 × Nat)) :
    (∀ decision, decision ∈ ofIP clientIP (log (acceptConnection m clientIP t).2 attempts) → decision.2 = false) ↔
      ∀ i (hi : i < (ofIP clientIP attempts).length), (ofIP clientIP attempts)[i] < t + 3000 + 250 * i := by
  rw [(ofIP_log _ clientIP attempts).1, acceptConnection_self, hentry,
    (blocked_of_refused hfree (hentry ▸ hrefused)).1]
  exact decisions_refused_iff rfl _

theorem held_iff_flood :
    (∀ decision, decision ∈ ofIP 7 (log (acceptConnection (connected (fun _ => none) flood) 7 500).2
      [(7, 600), (9, 700), (7, 3700)]) → decision.2 = false) ↔
      ∀ i (hi : i < (ofIP 7 [(7, 600), (9, 700), (7, 3700)]).length),
        (ofIP 7 [(7, 600), (9, 700), (7, 3700)])[i] < 500 + 3000 + 250 * i :=
  @held_iff (connected (fun _ => none) flood) 7 ⟨400, 0, 5⟩ 500 (by decide) (by decide) (by decide) _

end Ban

end Moonlight
