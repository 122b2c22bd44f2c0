/-!
# Runs that a fault ends

A step takes an input and a state, answers or faults, and leaves a state behind. `untilFault` runs it
over inputs one after the other. A fault is not one of the answers: it is all that the run gives
back, and no input behind it is taken. The state is then what the fault left.
-/

namespace TradeGate

/-- The answers to inputs one after the other, and the state behind them; or the first fault, and the
state that it left. -/
def untilFault {ι ε ο σ : Type} (step : ι → σ → Except ε ο × σ) :
    List ι → σ → Except ε (List ο) × σ
  | [], state => (.ok [], state)
  | input :: rest, state =>
    match step input state with
    | (.error fault, state) => (.error fault, state)
    | (.ok answer, state) =>
      let (answers, state) := untilFault step rest state
      (answers.map (answer :: ·), state)

end TradeGate
