import IosDevBootcamp.Calculator.Trap
import IosDevBootcamp.Calculator.Chain
import IosDevBootcamp.Calculator.Clear
import IosDevBootcamp.Calculator.Points
import IosDevBootcamp.Calculator.Unary
import IosDevBootcamp.InspoQuotes.Quotes
import IosDevBootcamp.InspoQuotes.Crash
import IosDevBootcamp.FlashChat.Send
import IosDevBootcamp.FlashChat.Rows
import IosDevBootcamp.FlashChat.Agree
import IosDevBootcamp.Todoey.Search
import IosDevBootcamp.Todoey.Notebook
import IosDevBootcamp.ARRuler.Measure
import IosDevBootcamp.ARDiceee.Dice
import IosDevBootcamp.ARDiceee.Plane
import IosDevBootcamp.NameThatFlower.Pick
import IosDevBootcamp.Twittermenti.Mood
import IosDevBootcamp.Swifter.Search
import IosDevBootcamp.Swifter.Uploads
import IosDevBootcamp.Swifter.Wire
import IosDevBootcamp.Swifter.Authorized
import IosDevBootcamp.Swifter.Stream
