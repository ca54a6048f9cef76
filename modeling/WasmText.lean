import WasmText.CommandLine.Run
import WasmText.ExternalKind
import WasmText.Lexer.Session
import WasmText.Main
import WasmText.Source.Folder
import WasmText.Text.Quoted
import WasmText.Proofs.Source.Reading
import WasmText.Proofs.Source.Pieces
import WasmText.Proofs.Source.Searching
import WasmText.Proofs.Source.Restoring
import WasmText.Proofs.Source.Agreement
import WasmText.Proofs.Buffer.Window
import WasmText.Proofs.Buffer.Reach
import WasmText.Proofs.Tape.Cursor
import WasmText.Proofs.Buffer.Refinement
import WasmText.Proofs.Buffer.Operations
import WasmText.Proofs.Lexer.Piece
import WasmText.Proofs.Lexer.Refinement
import WasmText.Proofs.Lexer.Bare
import WasmText.Proofs.Lexer.Turn
import WasmText.Proofs.Lexer.Simulation
import WasmText.Proofs.Lexer.Fit
import WasmText.Proofs.Location
import WasmText.Proofs.Lexer.Call
import WasmText.Proofs.Lexer.Lines
import WasmText.Proofs.Lexer.Tiling
import WasmText.Proofs.Session
import WasmText.Proofs.Buffer.Ending
import WasmText.Proofs.Lexer.Rounds
import WasmText.Proofs.Lexer.Ending
import WasmText.Proofs.Lexer.Unambiguous
import WasmText.Proofs.Lexer.Relexing
import WasmText.Proofs.Lexer.LineBreak
import WasmText.Proofs.Lexer.Within
import WasmText.Proofs.Lexer.Joining
import WasmText.Proofs.Lexer.Lookahead
import WasmText.Proofs.Lexer.Stability
import WasmText.Proofs.Text.Lines
import WasmText.Proofs.Bytes.Lossy
import WasmText.Proofs.Token
import WasmText.Proofs.Buffer.Taking
import WasmText.Proofs.Diagnostic.Clipping
import WasmText.Proofs.Lexer.Legible
import WasmText.Proofs.Diagnostic.Terminal
import WasmText.Proofs.CommandLine.Lines
import WasmText.Proofs.Diagnostic.Caret
import WasmText.Proofs.Lexer.Placement
import WasmText.Proofs.Language
import WasmText.Proofs.Number
import WasmText.Proofs.Classification
import WasmText.Proofs.Lexer.Course
import WasmText.Proofs.Lexer.Strings
import WasmText.Proofs.Lexer.Comments
import WasmText.Proofs.Source.Numbering
import WasmText.Proofs.Lexer.Anchor
import WasmText.Proofs.Lexer.Window
import WasmText.Proofs.Keyword
import WasmText.Proofs.Lexer.Instructions
import WasmText.Proofs.Lexer.Order
import WasmText.Proofs.Buffer.Failing
import WasmText.Proofs.Buffer.Capacity
import WasmText.Proofs.Lexer.Width
import WasmText.Proofs.CommandLine.Width
import WasmText.Proofs.Lexer.Fatal
import WasmText.Proofs.Source.Place
import WasmText.Proofs.Buffer.Layout
import WasmText.Proofs.Buffer.Losses
import WasmText.Proofs.Buffer.Attempts
import WasmText.Proofs.Buffer.Checked
import WasmText.Proofs.Buffer.Ranges
