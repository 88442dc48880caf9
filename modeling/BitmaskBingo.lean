import BitmaskBingo.Joining
import BitmaskBingo.Timing
import BitmaskBingo.Reentrancy
import BitmaskBingo.Refinement
import BitmaskBingo.Supply
import BitmaskBingo.Custody
import BitmaskBingo.Isolation
import BitmaskBingo.Playing
import BitmaskBingo.Marking
import BitmaskBingo.Dealing
import BitmaskBingo.Entering
import BitmaskBingo.Receipts
import BitmaskBingo.Winning
import BitmaskBingo.Allowances
import BitmaskBingo.Refusals
import BitmaskBingo.Settling
import BitmaskBingo.Turns
import BitmaskBingo.Views
