import Mathlib
/-!
# Reading the connection count

`get_connection_count` subscribes a fresh client to `CONNECTION_COUNT_TOPIC`
(`"$SYS/brokers/+/stats/connections/count"`) and waits up to 5000 ms for a message. The
payload of a message that comes goes through `std::stoi`, and a payload `stoi` rejects
reads as `0`. When no message comes, or the subscription throws, the count is `0` as well.

`std::stoi(str)` is `std::strtol(str.c_str(), &end, 10)` followed by two checks. No digit
read throws `invalid_argument`, and `errno == ERANGE` or a value outside `int` throws
`out_of_range`. `strtol` skips C-locale white space, reads an optional sign, then the
longest run of decimal digits. Its own overflow, at the range of `long`, lies outside that
of `int`, so the model reads the digits exactly and makes the one range check of `int`
(`stoi`). A NUL character ends both the white space and the digits, so `c_str` stopping at
the first NUL changes nothing.

A count a broker writes in decimal reads back (`getConnectionCount_decimal`). It may follow
any white space and be followed by any text that does not begin with a digit. It gives the
count itself when it fits in an `int`, and `0` otherwise.

The probe's thread and its callback are modelled as interleaved steps as well
(`ConnectionCountCallback`). The payload read is that of the last message to arrive before
the read (`result_of_arrivals`).
-/

namespace PahoMqtt

/-- `isspace` in the C locale: the space, and tab through carriage return. -/
def isSpace (c : Char) : Bool :=
  c.toNat = 32 || (9 ≤ c.toNat && c.toNat ≤ 13)

/-- The value of a run of decimal digits, most significant first. -/
def digitsValue (ds : List Char) : ℕ :=
  ds.foldl (fun acc c => 10 * acc + (c.toNat - '0'.toNat)) 0

/-- The optional sign `strtol` reads: whether it is `'-'`, and the characters after it. -/
def readSign : List Char → Bool × List Char
  | '-' :: t => (true, t)
  | '+' :: t => (false, t)
  | t => (false, t)

/-- `std::strtol(s, &end, 10)` on the characters: white space skipped, an optional sign and
the longest run of digits, read exactly; `none` when no digit follows (no conversion). -/
def strtol (s : List Char) : Option ℤ :=
  let (negative, t) := readSign (s.dropWhile isSpace)
  let ds := t.takeWhile Char.isDigit
  if ds = [] then none
  else some (if negative then -(digitsValue ds : ℤ) else digitsValue ds)

/-- What `std::stoi` throws. -/
inductive StoiError
  | invalidArgument
  | outOfRange
  deriving DecidableEq, Repr

/-- `std::stoi(str)`: `strtol`, then the range of a 32-bit `int`. -/
def stoi (str : String) : Except StoiError ℤ :=
  match strtol str.data with
  | none => .error .invalidArgument
  | some v => if -2 ^ 31 ≤ v ∧ v < 2 ^ 31 then .ok v else .error .outOfRange

namespace BrokerMonitorThread

/-- `get_connection_count` once its probe has run: `none` when an exception leaves it
(`create_test_client` failing to connect), `some none` when no message came within the
wait or the subscription threw, and the payload of the message otherwise. A payload `stoi`
rejects reads as `0`. -/
def getConnectionCount : Option (Option String) → Option ℤ
  | none => none
  | some none => some 0
  | some (some payload) =>
    match stoi payload with
    | .ok n => some n
    | .error _ => some 0

end BrokerMonitorThread

/-! ## Decimal counts read back -/

/-- The character of a decimal digit. -/
def digitChar (d : ℕ) : Char := Char.ofNat (48 + d)

/-- The digits of a number, most significant first, `"0"` for zero. -/
def decimalDigits (m : ℕ) : List Char :=
  if m = 0 then ['0'] else (Nat.digits 10 m).reverse.map digitChar

/-- The decimal form of a count as a broker writes it: `'-'` when it is negative, then the
digits of its absolute value. -/
def decimal (n : ℤ) : List Char :=
  (if n < 0 then ['-'] else []) ++ decimalDigits n.natAbs

theorem digitChar_spec : ∀ d < 10,
    (digitChar d).toNat = 48 + d ∧ (digitChar d).isDigit = true ∧ isSpace (digitChar d) = false ∧
      digitChar d ≠ '-' ∧ digitChar d ≠ '+' := by
  decide

theorem digitsValue_append_singleton (ds : List Char) (c : Char) :
    digitsValue (ds ++ [c]) = 10 * digitsValue ds + (c.toNat - 48) := by
  simp [digitsValue, List.foldl_append]

/-- Reading the digits back, least significant first in `Nat.digits`'s order. -/
theorem digitsValue_reverse (L : List ℕ) (hL : ∀ d ∈ L, d < 10) :
    digitsValue ((L.reverse).map digitChar) = Nat.ofDigits 10 L := by
  induction L with
  | nil => rfl
  | cons d L ih =>
    have hd := (digitChar_spec d (hL d (List.mem_cons_self _ _))).1
    rw [List.reverse_cons, List.map_append, List.map_singleton, digitsValue_append_singleton, hd,
      ih fun e he => hL e (List.mem_cons_of_mem _ he), Nat.ofDigits_cons]
    omega

theorem digitsValue_decimalDigits (m : ℕ) : digitsValue (decimalDigits m) = m := by
  unfold decimalDigits
  split_ifs with hm
  · subst hm
    rfl
  · rw [digitsValue_reverse _ fun d hd => Nat.digits_lt_base (by norm_num) hd, Nat.ofDigits_digits]

theorem isDigit_of_mem_decimalDigits {m : ℕ} {c : Char} (hc : c ∈ decimalDigits m) :
    c.isDigit = true := by
  unfold decimalDigits at hc
  split_ifs at hc
  · rw [List.mem_singleton.1 hc]
    rfl
  · obtain ⟨d, hd, rfl⟩ := List.mem_map.1 hc
    exact (digitChar_spec d (Nat.digits_lt_base (by norm_num) (List.mem_reverse.1 hd))).2.1

/-- The first character of the digits: a digit, so neither a sign nor white space. -/
theorem decimalDigits_eq_cons (m : ℕ) :
    ∃ c t, decimalDigits m = c :: t ∧ c.isDigit = true ∧ isSpace c = false ∧ c ≠ '-' ∧ c ≠ '+' := by
  unfold decimalDigits
  split_ifs with hm
  · exact ⟨'0', [], rfl, by decide⟩
  · obtain ⟨d, L, hL⟩ := List.exists_cons_of_ne_nil
      (mt List.map_eq_nil_iff.1 (mt List.reverse_eq_nil_iff.1 (Nat.digits_ne_nil_iff_ne_zero.2 hm)))
    have hd : d ∈ (Nat.digits 10 m).reverse.map digitChar := hL ▸ List.mem_cons_self _ _
    obtain ⟨e, he, rfl⟩ := List.mem_map.1 hd
    exact ⟨_, L, hL, (digitChar_spec e (Nat.digits_lt_base (by norm_num) (List.mem_reverse.1 he))).2⟩

theorem takeWhile_decimalDigits (m : ℕ) {rest : List Char}
    (hrest : ∀ c ∈ rest.head?, c.isDigit = false) :
    (decimalDigits m ++ rest).takeWhile Char.isDigit = decimalDigits m := by
  rw [List.takeWhile_append_of_pos fun c hc => isDigit_of_mem_decimalDigits hc]
  cases rest with
  | nil => simp
  | cons c rest => simp [hrest c rfl]

theorem strtol_decimal (n : ℤ) {ws rest : List Char} (hws : ∀ c ∈ ws, isSpace c = true)
    (hrest : ∀ c ∈ rest.head?, c.isDigit = false) :
    strtol (ws ++ decimal n ++ rest) = some n := by
  obtain ⟨c, t, hct, hdigit, hspace, hminus, hplus⟩ := decimalDigits_eq_cons n.natAbs
  have hne : decimalDigits n.natAbs ≠ [] := hct ▸ List.cons_ne_nil _ _
  have hval := digitsValue_decimalDigits n.natAbs
  rw [List.append_assoc, strtol, List.dropWhile_append_of_pos hws, decimal]
  by_cases hn : n < 0
  · -- a `'-'`, then the digits of the absolute value
    simp only [hn, if_true, List.singleton_append, List.cons_append, List.nil_append,
      List.dropWhile_cons_of_neg (by decide : ¬isSpace '-' = true), readSign,
      takeWhile_decimalDigits _ hrest, hne, hval, if_false]
    exact congrArg some (by omega)
  · -- the digits alone: the first is no sign
    have hsign : readSign (decimalDigits n.natAbs ++ rest) = (false, decimalDigits n.natAbs ++ rest) := by
      rw [hct, List.cons_append]
      unfold readSign
      split <;> simp_all
    simp only [hn, if_false, List.nil_append, hct, List.cons_append,
      List.dropWhile_cons_of_neg (by simp [hspace] : ¬isSpace c = true)]
    rw [← List.cons_append, ← hct, hsign]
    simp only [takeWhile_decimalDigits _ hrest, hne, if_false, hval, Bool.false_eq_true]
    exact congrArg some (by omega)

/-- **A count written in decimal reads back.** After any white space, and followed by any
text that does not begin with a digit, the decimal form of a count gives the count when it
fits in an `int`, and `0` when it does not. -/
theorem getConnectionCount_decimal (n : ℤ) {ws rest : List Char} (hws : ∀ c ∈ ws, isSpace c = true)
    (hrest : ∀ c ∈ rest.head?, c.isDigit = false) :
    BrokerMonitorThread.getConnectionCount (some (some ⟨ws ++ decimal n ++ rest⟩)) =
      some (if -2 ^ 31 ≤ n ∧ n < 2 ^ 31 then n else 0) := by
  simp only [BrokerMonitorThread.getConnectionCount, stoi, strtol_decimal n hws hrest]
  split_ifs <;> rfl

/-- A count of `42` after a space and before a newline. -/
theorem getConnectionCount_decimal_newline :
    (∀ c ∈ [' '], isSpace c = true) ∧ (∀ c ∈ ['\n'].head?, c.isDigit = false) ∧
    BrokerMonitorThread.getConnectionCount (some (some ⟨[' '] ++ decimal 42 ++ ['\n']⟩)) =
      some (if -2 ^ 31 ≤ (42 : ℤ) ∧ (42 : ℤ) < 2 ^ 31 then 42 else 0) :=
  have hws : ∀ c ∈ [' '], isSpace c = true := by decide
  have hrest : ∀ c ∈ ['\n'].head?, c.isDigit = false := by decide
  ⟨hws, hrest, getConnectionCount_decimal 42 hws hrest⟩

/-! ## The probe and its callback

Inside `get_connection_count` the thread and the client's `ConnectionCountCallback` share
`message_received` and `connection_count_str`. Each `message_arrived` overwrites the string
with its payload, whatever message it is. The thread subscribes, waits up to 5000 ms for
`message_received`, and reads the string once out of the wait loop. A subscription that
throws skips the read. So on every run the count returned is what `getConnectionCount`
makes of the payload of the last message to arrive before the read, or `0` when none had
(`result_of_arrivals`). With several nodes publishing under the topic's `+` level, that is
one node's count, not the sum of them.
-/

namespace BrokerMonitorThread

/-- Where the thread running `get_connection_count` is, once its client is connected and
the callback set. -/
inductive CountPc
  /-- `client->subscribe(CONNECTION_COUNT_TOPIC, TEST_QOS)->wait_for(…)` not yet returned. -/
  | subscribing
  /-- In the wait loop begun at `start_wait`. -/
  | waiting
  /-- Out of the wait loop. -/
  | left
  /-- The count returned. -/
  | returned
  deriving DecidableEq, Repr

/-- The state `get_connection_count` shares with its callback, with the clock in
milliseconds. `arrivals` is a ghost log of the payloads `message_arrived` saw, in order. -/
structure ConnectionCountCallback where
  clock : ℕ
  pc : CountPc
  messageReceived : Bool
  connectionCountStr : String
  startWait : ℕ
  result : Option ℤ
  arrivals : List String
  deriving DecidableEq, Repr

/-- The atomic steps of the probe's thread and of its callback, and a clock tick. -/
inductive CountStep
  | tick
  /-- The subscription returns; `auto start_wait = steady_clock::now();`. -/
  | subscribe
  /-- The subscription throws: caught and logged, then the client is disconnected and `0`
  returned. -/
  | subscribeThrows
  /-- The wait loop's exit: `message_received` seen, or 5000 ms gone. -/
  | leave
  /-- `if (callback.message_received) return std::stoi(…)` (`0` when `stoi` throws), and
  `return 0` otherwise. -/
  | finish
  /-- `message_arrived` with a message whose payload is `payload`. -/
  | arrive (payload : String)
  deriving DecidableEq, Repr

/-- The payload a step delivers: that of a `message_arrived`. -/
def CountStep.payload : CountStep → Option String
  | .arrive payload => some payload
  | .tick | .subscribe | .subscribeThrows | .leave | .finish => none

namespace ConnectionCountCallback

/-- The probe at time `now`, its subscription under way. -/
def init (now : ℕ) : ConnectionCountCallback :=
  ⟨now, .subscribing, false, "", 0, none, []⟩

/-- What the read sees: the payload in `connection_count_str` once a message has come. -/
def seen (s : ConnectionCountCallback) : Option String :=
  if s.messageReceived then some s.connectionCountStr else none

/-- One step, when it is enabled. The thread runs in program order; a message can arrive at
any time. -/
def step (s : ConnectionCountCallback) : CountStep → Option ConnectionCountCallback
  | .tick => some { s with clock := s.clock + 1 }
  | .subscribe =>
    if s.pc = .subscribing then some { s with pc := .waiting, startWait := s.clock } else none
  | .subscribeThrows =>
    if s.pc = .subscribing then some { s with pc := .returned, result := getConnectionCount (some none) }
    else none
  | .leave =>
    if s.pc = .waiting ∧ (s.messageReceived ∨ 5000 ≤ s.clock - s.startWait) then
      some { s with pc := .left }
    else none
  | .finish =>
    if s.pc = .left then some { s with pc := .returned, result := getConnectionCount (some s.seen) }
    else none
  | .arrive payload =>
    some { s with connectionCountStr := payload, messageReceived := true,
                  arrivals := s.arrivals ++ [payload] }

/-- A schedule of steps, `none` when one of them is not enabled. -/
def run : List CountStep → ConnectionCountCallback → Option ConnectionCountCallback
  | [], s => some s
  | e :: es, s => (s.step e).bind (run es)

/-- The read sees the last payload to arrive. -/
structure Inv (s : ConnectionCountCallback) : Prop where
  seen : s.seen = s.arrivals.getLast?

theorem inv_init (now : ℕ) : (init now).Inv :=
  ⟨rfl⟩

theorem Inv.step {s s' : ConnectionCountCallback} (h : s.Inv) {e : CountStep}
    (hs : s.step e = some s') : s'.Inv := by
  cases e with
  | tick => cases hs; exact ⟨h.seen⟩
  | subscribe | subscribeThrows | leave | finish =>
    simp only [ConnectionCountCallback.step] at hs
    split_ifs at hs
    cases hs
    exact ⟨h.seen⟩
  | arrive payload =>
    cases hs
    exact ⟨show some payload = _ by simp⟩

/-- What a step can do: the read and the subscription's throw return with the count, the
read's from what it sees; every other step keeps the count, adds its payload if it has one
to the arrivals, and leaves a returned probe returned. -/
theorem step_cases {s t : ConnectionCountCallback} {e : CountStep} (hs : s.step e = some t) :
    (e ≠ .finish ∧ e ≠ .subscribeThrows ∧ t.result = s.result ∧
      t.arrivals = s.arrivals ++ e.payload.toList ∧ (s.pc = .returned → t.pc = .returned)) ∨
    (e = .finish ∧ s.pc = .left ∧ t.pc = .returned ∧
      t.result = getConnectionCount (some s.seen)) ∨
    (e = .subscribeThrows ∧ s.pc = .subscribing ∧ t.pc = .returned ∧ t.result = some 0) := by
  cases e with
  | tick | arrive payload =>
    cases hs
    exact .inl ⟨nofun, nofun, rfl, by simp [CountStep.payload], id⟩
  | subscribe | leave =>
    simp only [ConnectionCountCallback.step] at hs
    split_ifs at hs with hpc
    cases hs
    exact .inl ⟨nofun, nofun, rfl, by simp [CountStep.payload], fun h => by simp [h] at hpc⟩
  | finish =>
    simp only [ConnectionCountCallback.step] at hs
    split_ifs at hs with hpc
    cases hs
    exact .inr (.inl ⟨rfl, hpc, rfl, rfl⟩)
  | subscribeThrows =>
    simp only [ConnectionCountCallback.step] at hs
    split_ifs at hs with hpc
    cases hs
    exact .inr (.inr ⟨rfl, hpc, rfl, rfl⟩)

/-- Once the probe has returned, no step changes its count. -/
theorem run_of_returned {s : ConnectionCountCallback} (hpc : s.pc = .returned) :
    ∀ {es : List CountStep} {s' : ConnectionCountCallback}, run es s = some s' →
      s'.result = s.result
  | [], _, hs => by rw [← Option.some.inj hs]
  | _ :: _, _, hs => by
    obtain ⟨t, ht, hrun⟩ := Option.bind_eq_some.1 hs
    rcases step_cases ht with ⟨-, -, hres, -, hret⟩ | ⟨-, hl, -⟩ | ⟨-, hl, -⟩
    · rw [run_of_returned (hret hpc) hrun, hres]
    all_goals simp [hpc] at hl

theorem filterMap_payload_cons (e : CountStep) (es : List CountStep) :
    (e :: es).filterMap CountStep.payload = e.payload.toList ++ es.filterMap CountStep.payload := by
  cases hp : e.payload <;> simp [List.filterMap_cons, hp]

/-- From a probe with no count yet, a run that ends with a count took it at its first read
or throw: a read gives what `getConnectionCount` makes of the last payload to arrive before
it, a throw `0`. -/
theorem Inv.result_split {s₀ : ConnectionCountCallback} (h : s₀.Inv) (h0 : s₀.result = none) :
    ∀ {es : List CountStep} {s : ConnectionCountCallback} {n : ℤ}, run es s₀ = some s →
      s.result = some n →
      ∃ es₁ e es₂, es = es₁ ++ e :: es₂ ∧ (∀ e' ∈ es₁, e' ≠ .finish ∧ e' ≠ .subscribeThrows) ∧
        ((e = .finish ∧ getConnectionCount
            (some (s₀.arrivals ++ es₁.filterMap CountStep.payload).getLast?) = some n) ∨
          (e = .subscribeThrows ∧ n = 0))
  | [], _, _, hs, hn => by
    rw [← Option.some.inj hs, h0] at hn
    cases hn
  | e :: es, _, n, hs, hn => by
    obtain ⟨t, ht, hrun⟩ := Option.bind_eq_some.1 hs
    rcases step_cases ht with ⟨hf, hthrow, hres, harr, -⟩ | ⟨rfl, -, hret, hres⟩ |
        ⟨rfl, -, hret, hres⟩
    · -- no count yet: it is taken later in the schedule
      obtain ⟨es₁, e', es₂, rfl, hbefore, hread⟩ := (h.step ht).result_split (hres.trans h0) hrun hn
      refine ⟨e :: es₁, e', es₂, rfl, List.forall_mem_cons.2 ⟨⟨hf, hthrow⟩, hbefore⟩, ?_⟩
      rwa [filterMap_payload_cons, ← List.append_assoc, ← harr]
    · -- the read
      refine ⟨[], .finish, es, rfl, nofun, .inl ⟨rfl, ?_⟩⟩
      rw [List.filterMap_nil, List.append_nil, ← h.seen, ← hres, ← hn, run_of_returned hret hrun]
    · -- the subscription threw
      rw [run_of_returned hret hrun, hres] at hn
      exact ⟨[], .subscribeThrows, es, rfl, nofun, .inr ⟨rfl, (Option.some.inj hn).symm⟩⟩

/-- Two nodes publish their counts, `"3"` and then `"5"`, and the probe reads. -/
def twoNodes : List CountStep :=
  [.subscribe, .arrive "3", .arrive "5", .leave, .finish]

/-- **The count comes from the last message before the read.** On every run of the probe
and its callback, a count the probe returns was taken at the first read or throw of the
schedule. Taken at the read, it is what `getConnectionCount` makes of the payload of the
last `message_arrived` before it, or of none, which gives `0`; when the subscription threw it
is `0`. Arrivals after the read change nothing. -/
theorem result_of_arrivals {t0 : ℕ} {es : List CountStep} {s : ConnectionCountCallback} {n : ℤ}
    (hrun : run es (init t0) = some s) (hn : s.result = some n) :
    ∃ es₁ e es₂, es = es₁ ++ e :: es₂ ∧ (∀ e' ∈ es₁, e' ≠ .finish ∧ e' ≠ .subscribeThrows) ∧
      ((e = .finish ∧ getConnectionCount (some (es₁.filterMap CountStep.payload).getLast?) = some n) ∨
        (e = .subscribeThrows ∧ n = 0)) :=
  (inv_init t0).result_split rfl hrun hn

/-- Messages from several nodes overwrite one another: counts of `3` and then `5` read as
`5`, not as their sum. -/
theorem result_of_arrivals_twoNodes :
    let s : ConnectionCountCallback := ⟨0, .returned, true, "5", 0, some 5, ["3", "5"]⟩
    run twoNodes (init 0) = some s ∧ s.result = some 5 ∧
      ∃ es₁ e es₂, twoNodes = es₁ ++ e :: es₂ ∧
        (∀ e' ∈ es₁, e' ≠ .finish ∧ e' ≠ .subscribeThrows) ∧
        ((e = .finish ∧ getConnectionCount (some (es₁.filterMap CountStep.payload).getLast?) =
            some 5) ∨ (e = .subscribeThrows ∧ (5 : ℤ) = 0)) :=
  have hrun : run twoNodes (init 0) = some ⟨0, .returned, true, "5", 0, some 5, ["3", "5"]⟩ :=
    rfl
  ⟨hrun, rfl, result_of_arrivals hrun rfl⟩

end ConnectionCountCallback

end BrokerMonitorThread

end PahoMqtt
