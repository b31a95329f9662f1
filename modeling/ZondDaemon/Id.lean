import ZondDaemon.Base.Digits
import ZondDaemon.Base.Machine

/-!
# Naming a scan

A name is a millisecond and a counter, most significant first, in thirteen characters of Crockford's
base 32. `encode` writes the digits of a number in a fixed width over an alphabet in order, so names
compare as the numbers they are. The calls that mint names run side by side: each reads the clock, then
draws from the one counter of the process, then writes the name (`machine`).
-/

namespace ZondDaemon.Id

open Digits Machine

/-- No `I`, `L`, `O` or `U`. -/
def alphabet : List Char := "0123456789ABCDEFGHJKMNPQRSTVWXYZ".toList

def perMillisecond : UInt64 := (1 : UInt64) <<< 16

/-- The loop over the slots, the last first: `n` slots are still to be written, `out` are those behind them. -/
def encodeLoop : Nat → UInt64 → List Char → List Char
  | 0, _, out => out
  | n + 1, value, out => encodeLoop n (value / 32) (alphabet[(value % 32).toNat]! :: out)

def encode (value : UInt64) : String := String.ofList (encodeLoop 13 value [])

/-- What the clock says as milliseconds since the epoch, `clock` being negative before it. -/
def millis (clock : Int) : UInt64 := if 0 ≤ clock then UInt64.ofNat clock.toNat else 0

/-- The name minted by a call to which the clock says `clock` and the counter gives `ticket`. -/
def mint (clock : Int) (ticket : UInt64) : String :=
  encode (millis clock * perMillisecond + ticket % perMillisecond)

/-! ## Names as numbers -/

/-- The bytes strings are compared by. -/
def bytes (text : String) : List UInt8 := text.toUTF8.data.toList

/-- The byte of the letter a digit is shown as. -/
def letter (d : Nat) : UInt8 := UInt8.ofNat (alphabet[d]!).toNat

theorem letter_lt_letter : ∀ d e, d < 32 → e < 32 → d < e → letter d < letter e := by
  have h : ∀ d < 32, ∀ e < 32, d < e → letter d < letter e := by decide
  exact fun d e hd he hde => h d hd e he hde

theorem utf8_letter : ∀ d < 32, String.utf8EncodeChar alphabet[d]! = [letter d] := by decide

theorem encodeLoop_eq (n : Nat) (value : UInt64) (out : List Char) :
    encodeLoop n value out = (digits 32 n value.toNat).map (alphabet[·]!) ++ out := by
  induction n generalizing value out with
  | zero => simp [encodeLoop, digits]
  | succ n ih => simp [encodeLoop, digits, ih, UInt64.toNat_div, UInt64.toNat_mod]

theorem bytes_encode (value : UInt64) :
    bytes (encode value) = (digits 32 13 value.toNat).map letter := by
  rw [bytes, encode, encodeLoop_eq, List.append_nil, String.toUTF8_eq_toByteArray,
    String.toByteArray_ofList, List.utf8Encode, List.toList_data_toByteArray, List.flatMap_map]
  have hletters : ∀ d ∈ digits 32 13 value.toNat, String.utf8EncodeChar alphabet[d]! = [letter d] :=
    fun d hd => utf8_letter d (digits_below (by omega) hd)
  rw [List.map_eq_flatMap]
  exact List.flatMap_congr hletters

theorem encode_lt {a b : UInt64} (h : a < b) : bytes (encode a) < bytes (encode b) := by
  have hwidth : b.toNat < 32 ^ 13 := Nat.lt_of_lt_of_le b.toNat_lt (by decide)
  rw [bytes_encode, bytes_encode]
  exact map_digits_lt_map_digits letter_lt_letter hwidth (UInt64.lt_iff_toNat_lt.mp h)

theorem encode_lt_iff {a b : UInt64} : bytes (encode a) < bytes (encode b) ↔ a < b := by
  constructor
  · intro h
    rcases Nat.lt_trichotomy a.toNat b.toNat with hab | hab | hba
    · exact UInt64.lt_iff_toNat_lt.mpr hab
    · rw [UInt64.toNat_inj.mp hab] at h
      exact absurd h (List.lt_irrefl _)
    · exact absurd h (List.lt_asymm (encode_lt (UInt64.lt_iff_toNat_lt.mpr hba)))
  · exact encode_lt

theorem encode_injective : Function.Injective encode := by
  intro a b h
  have hab : ¬ a < b := fun hlt => List.lt_irrefl _ (h ▸ encode_lt hlt)
  have hba : ¬ b < a := fun hlt => List.lt_irrefl _ (h ▸ encode_lt hlt)
  exact UInt64.le_antisymm (UInt64.not_lt.mp hba) (UInt64.not_lt.mp hab)

theorem encode_letters (value : UInt64) :
    (encode value).toList.length = 13 ∧ ∀ c ∈ (encode value).toList, c ∈ alphabet := by
  have hletter : ∀ d < 32, alphabet[d]! ∈ alphabet := by decide
  rw [encode, encodeLoop_eq, List.append_nil, String.toList_ofList]
  refine ⟨by simp, ?_⟩
  intro c hc
  obtain ⟨d, hd, rfl⟩ := List.mem_map.mp hc
  exact hletter d (digits_below (by omega) hd)

theorem toNat_value {m ticket : UInt64} (hm : m.toNat < 2 ^ 48) :
    (m * perMillisecond + ticket % perMillisecond).toNat = m.toNat * 65536 + ticket.toNat % 65536 := by
  have hper : perMillisecond.toNat = 65536 := by decide
  rw [UInt64.toNat_add, UInt64.toNat_mul, UInt64.toNat_mod, hper]
  omega

/-- The low half of a name is the counter's, whatever the multiplication wraps. -/
theorem value_mod (m ticket : UInt64) :
    (m * perMillisecond + ticket % perMillisecond).toNat % 65536 = ticket.toNat % 65536 := by
  have hper : perMillisecond.toNat = 65536 := by decide
  rw [UInt64.toNat_add, UInt64.toNat_mul, UInt64.toNat_mod, hper]
  omega

theorem mint_ne {clock clock' : Int} {k k' : UInt64} (h : k.toNat % 65536 ≠ k'.toNat % 65536) :
    mint clock k ≠ mint clock' k' := by
  intro heq
  have hvalue := congrArg (·.toNat % 65536) (encode_injective heq)
  simp only [value_mod] at hvalue
  exact h hvalue

theorem millis_mono {clock clock' : Int} (h : clock ≤ clock') (hfar : clock' < 2 ^ 48) :
    (millis clock).toNat ≤ (millis clock').toNat ∧ (millis clock').toNat < 2 ^ 48 := by
  simp only [millis]
  split_ifs <;> simp <;> omega

theorem mint_lt_iff {clock clock' : Int} {k k' : UInt64} (h : clock ≤ clock') (hfar : clock' < 2 ^ 48) :
    bytes (mint clock k) < bytes (mint clock' k') ↔
      millis clock < millis clock' ∨ k % perMillisecond < k' % perMillisecond := by
  have hper : perMillisecond.toNat = 65536 := by decide
  obtain ⟨hle, hlt⟩ := millis_mono h hfar
  rw [mint, mint, encode_lt_iff, UInt64.lt_iff_toNat_lt, toNat_value (Nat.lt_of_le_of_lt hle hlt),
    toNat_value hlt, UInt64.lt_iff_toNat_lt, UInt64.lt_iff_toNat_lt, UInt64.toNat_mod, UInt64.toNat_mod, hper]
  omega

/-! ## Calls side by side -/

/-- A name, with what the clock and the counter said to the call that minted it. -/
structure Minted where
  clock : Int
  ticket : UInt64
  name : String
  deriving DecidableEq

/-- How far a call of `mint` has come. -/
inductive Call
  | begun
  | read (clock : Int)
  | drawn (clock : Int) (ticket : UInt64)
  | returned (minted : Minted)
  deriving DecidableEq

structure State where
  counter : UInt64
  /-- In the order they began. -/
  calls : List Call
  deriving DecidableEq

inductive Act
  | call
  | read (i : Nat) (clock : Int)
  | draw (i : Nat)
  | finish (i : Nat)

def State.step (s : State) : Act → Option State
  | .call => some { s with calls := s.calls ++ [.begun] }
  | .read i clock =>
    match s.calls[i]? with
    | some .begun => some { s with calls := s.calls.set i (.read clock) }
    | _ => none
  | .draw i =>
    match s.calls[i]? with
    | some (.read clock) => some ⟨s.counter + 1, s.calls.set i (.drawn clock s.counter)⟩
    | _ => none
  | .finish i =>
    match s.calls[i]? with
    | some (.drawn clock ticket) =>
      some { s with calls := s.calls.set i (.returned ⟨clock, ticket, mint clock ticket⟩) }
    | _ => none

def machine : Machine State Act := ⟨State.step⟩

def start : State := ⟨0, []⟩

/-- What a call has returned is the name for what it was told. -/
def Faithful (s : State) : Prop := ∀ m, Call.returned m ∈ s.calls → m.name = mint m.clock m.ticket

theorem Faithful.set {s : State} (h : Faithful s) {counter : UInt64} {i : Nat} {call : Call}
    (hcall : ∀ m, call = Call.returned m → m.name = mint m.clock m.ticket) :
    Faithful ⟨counter, s.calls.set i call⟩ := by
  intro m hm
  rcases List.mem_or_eq_of_mem_set hm with hm | hm
  · exact h m hm
  · exact hcall m hm.symm

theorem Faithful.step {s t : State} {a : Act} (h : Faithful s) (hstep : s.step a = some t) : Faithful t := by
  cases a with
  | call =>
    have ht : ⟨s.counter, s.calls ++ [.begun]⟩ = t := Option.some.inj hstep
    subst ht
    intro m hm
    have hold : Call.returned m ∈ s.calls := by simpa using hm
    exact h m hold
  | read i clock | draw i =>
    simp only [State.step] at hstep
    split at hstep
    · cases hstep
      exact h.set (by simp)
    · cases hstep
  | finish i =>
    simp only [State.step] at hstep
    split at hstep
    · cases hstep
      refine h.set ?_
      intro m hm
      cases hm
      rfl
    · cases hstep

variable {s t : State} {first second : Minted}

theorem Faithful.of_reach (h : machine.Reach Always start s) : Faithful s :=
  h.invariant (I := Faithful) (by simp [Faithful, start]) fun _ hI _ hstep => hI.step hstep

/-- Two tickets are less than 65536 draws of the counter apart, also where the counter itself wraps. -/
def Near (k k' : UInt64) : Prop := (k - k').toNat < 65536 ∨ (k' - k).toNat < 65536

instance (k k' : UInt64) : Decidable (Near k k') := inferInstanceAs (Decidable (_ ∨ _))

theorem Near.mod_ne {k k' : UInt64} (h : Near k k') (hne : k ≠ k') : k.toNat % 65536 ≠ k'.toNat % 65536 := by
  have hnat : k.toNat ≠ k'.toNat := fun heq => hne (UInt64.toNat_inj.mp heq)
  have hk := k.toNat_lt
  have hk' := k'.toNat_lt
  simp only [Near, UInt64.toNat_sub] at h
  omega

/-- **Names are 13 letters that sort as the numbers they encode**, and of any two calls of a process whose draws
are fewer than 65536 apart the names differ, whatever the clock says. -/
theorem names_distinct :
    (∀ a b : UInt64, bytes (encode a) < bytes (encode b) ↔ a < b) ∧ Function.Injective encode ∧
      (∀ a : UInt64, (encode a).toList.length = 13 ∧ ∀ c ∈ (encode a).toList, c ∈ alphabet) ∧
      ∀ s : State, machine.Reach Always start s → ∀ first second, Call.returned first ∈ s.calls →
        Call.returned second ∈ s.calls → Near first.ticket second.ticket → first.ticket ≠ second.ticket →
        first.name ≠ second.name := by
  refine ⟨fun a b => encode_lt_iff, encode_injective, encode_letters, ?_⟩
  intro s h first second hfirst hsecond hnear hne
  have hfaithful := Faithful.of_reach h
  rw [hfaithful first hfirst, hfaithful second hsecond]
  exact mint_ne (hnear.mod_ne hne)

/-- Two calls of two threads, the later draw being told an earlier time. -/
theorem names_distinct_crossed : mint 1760000000000 0 ≠ mint (-1) 1 := by
  have hrun : machine.run start [.call, .call, .read 1 (-1), .read 0 1760000000000, .draw 0, .draw 1,
      .finish 1, .finish 0] = some ⟨2, [.returned ⟨1760000000000, 0, mint 1760000000000 0⟩,
        .returned ⟨-1, 1, mint (-1) 1⟩]⟩ := rfl
  exact names_distinct.2.2.2 _ (Reach.of_run hrun) _ _ List.mem_cons_self
    (List.mem_cons_of_mem _ List.mem_cons_self) (by decide) (by decide)

/-! ## Calls in turn -/

/-- In some run of the process the first call returned before the second began. -/
def InTurn (first second : Minted) : Prop :=
  ∃ (s t : State) (i j : Nat), machine.Reach Always start s ∧ s.calls[i]? = some (.returned first) ∧
    machine.Reach Always s t ∧ s.calls.length ≤ j ∧ t.calls[j]? = some (.returned second)

theorem InTurn.faithful (h : InTurn first second) :
    first.name = mint first.clock first.ticket ∧ second.name = mint second.clock second.ticket := by
  obtain ⟨s, t, i, j, hs, hi, ht, _, hj⟩ := h
  exact ⟨Faithful.of_reach hs first (List.mem_of_getElem? hi),
    Faithful.of_reach (hs.trans ht) second (List.mem_of_getElem? hj)⟩

/-- Of two calls one after the other, with the clock not turned back, the first name sorts before the
second unless both read one millisecond and the counter's low half does not stand higher at the second. -/
theorem names_sort_iff (h : InTurn first second) (hclock : first.clock ≤ second.clock)
    (hfar : second.clock < 2 ^ 48) :
    bytes first.name < bytes second.name ↔ millis first.clock < millis second.clock ∨
      first.ticket % perMillisecond < second.ticket % perMillisecond := by
  obtain ⟨hfirst, hsecond⟩ := h.faithful
  rw [hfirst, hsecond]
  exact mint_lt_iff hclock hfar

theorem mint_alone (s : State) (clock : Int) :
    machine.Reach Always s
      ⟨s.counter + 1, s.calls ++ [.returned ⟨clock, s.counter, mint clock s.counter⟩]⟩ := by
  have hrun : machine.run s [.call, .read s.calls.length clock, .draw s.calls.length,
      .finish s.calls.length] =
      some ⟨s.counter + 1, s.calls ++ [.returned ⟨clock, s.counter, mint clock s.counter⟩]⟩ := by
    simp [run, runIf, machine, State.step]
  exact Reach.of_run hrun

theorem minted_before (clock : Int) (n : Nat) :
    ∃ calls, machine.Reach Always start ⟨UInt64.ofNat n, calls⟩ := by
  induction n with
  | zero => exact ⟨[], .refl⟩
  | succ n ih =>
    obtain ⟨calls, h⟩ := ih
    have hnext := h.trans (mint_alone _ clock)
    rw [← UInt64.ofNat_one, ← UInt64.ofNat_add] at hnext
    exact ⟨_, hnext⟩

theorem inTurn_alone (clock : Int) (n : Nat) :
    InTurn ⟨clock, UInt64.ofNat n, mint clock (UInt64.ofNat n)⟩
      ⟨clock, UInt64.ofNat n + 1, mint clock (UInt64.ofNat n + 1)⟩ := by
  obtain ⟨calls, h⟩ := minted_before clock n
  refine ⟨_, _, calls.length, calls.length + 1, h.trans (mint_alone _ clock), by simp,
    mint_alone _ clock, by simp, by simp⟩

theorem names_sort_iff_counter_zero :
    bytes (mint 1760000000000 0) < bytes (mint 1760000000000 1) :=
  (names_sort_iff (inTurn_alone 1760000000000 0) (by decide) (by decide)).mpr (.inr (by decide))

/-- The 65536th name of a process and the next, in one millisecond. -/
theorem wrapped_name_sorts_first :
    InTurn ⟨1760000000000, 65535, mint 1760000000000 65535⟩ ⟨1760000000000, 65536, mint 1760000000000 65536⟩ ∧
      ¬ bytes (mint 1760000000000 65535) < bytes (mint 1760000000000 65536) := by
  refine ⟨inTurn_alone 1760000000000 65535, ?_⟩
  rw [mint_lt_iff (by decide) (by decide)]
  decide

end ZondDaemon.Id
